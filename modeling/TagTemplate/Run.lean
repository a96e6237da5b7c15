import TagTemplate.Echo
import TagTemplate.Sink
import TagTemplate.Template.Basic

/-! Running templates. Text is copied, echo tags are evaluated and what is left on their stack is
written from the bottom up, and FOR blocks repeat their body with a variable bound to one value
after the other. A number of rounds bounds every single loop, so that a run is a total function;
giving up for want of rounds is kept apart from every fault of the template. -/

namespace TagTemplate

/-- What a run works on; its output goes to a `σ`. -/
structure MachineOn (σ : Type) where
  sink : σ
  context : Context
  bindings : Bindings
  /-- The loop iterations counted so far, over all loops. -/
  iterations : Nat

abbrev Machine := MachineOn Sink

inductive Halt where
  | fault (e : Fault)
  | outOfRounds
deriving DecidableEq

/-- A run keeps what was written and changed before it halts. -/
abbrev Exec (σ : Type) := EStateM Halt (MachineOn σ)

variable {σ : Type}

namespace Exec

def ofExcept {α : Type} (result : Except Fault α) : Exec σ α :=
  match result with
  | .ok a => pure a
  | .error e => throw (.fault e)

/-- Work on the context alone. -/
def onContext {α : Type} (act : Builtin.Action α) : Exec σ α := fun m =>
  match act m.context with
  | .ok a context => .ok a { m with context }
  | .error e context => .error (.fault e) { m with context }

def write [Writer σ] (s : String) : Exec σ Unit := fun m =>
  match Writer.write m.sink s with
  | (true, sink) => .ok () { m with sink }
  | (false, sink) => .error (.fault .outputFull) { m with sink }

/-- A value that is absent is not written at all, not even as an empty text. -/
def writeValue [Writer σ] : Value → Exec σ Unit
  | .absent => pure ()
  | v => write v.display

def echo [Writer σ] (elements : List Element) : Exec σ Unit := do
  let b := (← get).bindings
  let stack ← onContext (Element.evalAll b elements [])
  stack.reverse.forM writeValue

/-- Counts a loop iteration; the one above the limit is a fault. -/
def countIteration : Exec σ Unit := do
  let m ← get
  let iterations := m.iterations + 1
  set { m with iterations }
  match m.context.maxLoopIterations with
  | some limit => if limit < iterations then throw (.fault (.iterationLimit limit))
  | none => pure ()

def peek (name : String) : Exec σ Value := do ofExcept ((← get).bindings.peek name)

def rebind (name : String) (v : Value) : Exec σ Unit :=
  modify fun m => { m with bindings := m.bindings.rebind name v }

def unbind (name : String) : Exec σ Unit := fun m =>
  match m.bindings.unbind name with
  | .ok (_, bindings) => .ok () { m with bindings }
  | .error e => .error (.fault e) m

/-- Runs with a name bound to a value and removes the binding afterwards, also after a fault. -/
def withBinding (name : String) (v : Value) (body : Exec σ Unit) : Exec σ Unit := fun m =>
  match body { m with bindings := m.bindings.bind name v } with
  | .ok () m => unbind name m
  | .error h m =>
    match unbind name m with
    | .ok () m => .error h m
    | .error h m => .error h m

/-- The bounds of a loop. -/
structure Bounds where
  start : Number
  stop : Number
  step : Number
  descending : Bool

/-- Without a step the variable counts by one. -/
def stepOf (b : Bindings) (head : LoopHead) : Except Fault Number :=
  match head.step with
  | some e => e.bound b
  | none => .ok (.integer 1)

/-- Bounds are read from outside the loop; a step of zero is a fault. -/
def bounds (b : Bindings) (head : LoopHead) : Except Fault Bounds := do
  let start ← head.start.bound b
  let stop ← head.stop.bound b
  let step ← stepOf b head
  match ← Value.compare (.number step) (.integer 0) with
  | .eq => throw (.zeroStep head.name)
  | .lt => pure ⟨start, stop, step, true⟩
  | .gt => pure ⟨start, stop, step, false⟩

/-- Has a value that stands so to the end bound gone past it? -/
def Bounds.past (r : Bounds) (order : Ordering) : Bool :=
  if r.descending then order == .lt else order == .gt

/-- Starts a round and counts it, unless the variable has passed the end; gives the value that the
variable has in it. -/
def nextRound (name : String) (r : Bounds) : Exec σ (Option Value) := do
  let current ← peek name
  if r.past (← ofExcept (current.compare (.number r.stop))) then pure none
  else
    countIteration
    pure (some current)

/-- Moves the variable on by a step and says whether it could. An integer end lies among the
32-bit integers, so a variable that would leave them has passed it. -/
def advance (name : String) (r : Bounds) : Exec σ Bool := do
  let current ← peek name
  match current.apply .add (.number r.step), r.stop with
  | .ok next, _ =>
    rebind name (.number next)
    pure true
  | .error (.overflow _), .integer _ => pure false
  | .error e, _ => throw (.fault e)

/-- Repeats the body as long as the variable has not passed the end. -/
def rounds (name : String) (r : Bounds) (body : Exec σ Unit) : Nat → Exec σ Unit
  | 0 => throw .outOfRounds
  | more + 1 => do
    match ← nextRound name r with
    | none => pure ()
    | some _ =>
      body
      if ← advance name r then rounds name r body more

def loop (limit : Nat) (head : LoopHead) (body : Exec σ Unit) : Exec σ Unit := do
  let r ← ofExcept (bounds (← get).bindings head)
  withBinding head.name (.number r.start) (rounds head.name r body limit)

end Exec

variable [Writer σ]

mutual

def Node.run (limit : Nat) : Node → Exec σ Unit
  | .text s => Exec.write s
  | .echo elements => Exec.echo elements
  | .loop head body => Exec.loop limit head (Template.run limit body)

/-- Runs the nodes in order; no single loop makes more rounds than the limit. -/
def Template.run (limit : Nat) : List Node → Exec σ Unit
  | [] => pure ()
  | n :: ns => do
    n.run limit
    Template.run limit ns

end

end TagTemplate
