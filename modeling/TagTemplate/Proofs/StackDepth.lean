import TagTemplate.Proofs.Evaluation

/-! How many values stand on the stack of an echo tag. Every element takes a fixed number of them
off and puts a fixed number back, whatever the values and the context are. So the elements alone
tell how deep the stack is at any point, how many values are written in the end, and where operands
are missing. -/

namespace TagTemplate

/-! ## What an element takes and puts back -/

/-- How many values are needed on the stack, and how many stand there in their place afterwards. -/
structure Arity where
  needed : Nat
  produced : Nat

def Arity.after (a : Arity) (depth : Nat) : Nat := depth - a.needed + a.produced

def Builtin.arity : Builtin → Arity
  | .sin => ⟨1, 1⟩
  | .decfmt => ⟨2, 1⟩
  | .dup => ⟨1, 2⟩
  | .swap => ⟨2, 2⟩
  | .setMimeType => ⟨1, 0⟩
  | .paramGet | .pparamGet | .tparamGet => ⟨2, 1⟩
  | .pparamSet | .tparamSet => ⟨2, 0⟩
  | .pparamDel | .tparamDel => ⟨1, 0⟩

namespace Element

/-- A function that does not exist fails whatever is on the stack. -/
def arity : Element → Arity
  | .integer _ | .double _ | .string _ | .var _ => ⟨0, 1⟩
  | .operator _ => ⟨2, 1⟩
  | .function name =>
    match Builtin.ofName? name with
    | some f => f.arity
    | none => ⟨0, 0⟩

/-- The depth behind the elements, if none of them finds too little. -/
def depthAfter (elements : List Element) (depth : Nat) : Nat :=
  elements.foldl (fun depth e => e.arity.after depth) depth

/-- The first element that finds less on the stack than it needs, and what it finds. -/
def shortage? : List Element → Nat → Option (Element × Nat)
  | [], _ => none
  | e :: es, depth =>
    if depth < e.arity.needed then some (e, depth) else shortage? es (e.arity.after depth)

end Element

namespace Fault

/-- Operands are missing on the stack. -/
def isUnderflow : Fault → Bool
  | .operatorUnderflow .. | .functionUnderflow .. => true
  | _ => false

/-- The fault says of which element operands are missing, and how many values there are. -/
def Reports (fault : Fault) (e : Element) (available : Nat) : Prop :=
  match e with
  | .operator symbol => fault = .operatorUnderflow symbol available
  | .function name => fault = .functionUnderflow name e.arity.needed available
  | _ => False

theorem isUnderflow_eq_false {fault : Fault} (h : fault.ofOperands = true) :
    fault.isUnderflow = false := by
  cases fault <;> first | rfl | cases h

end Fault

/-! ## Functions -/

namespace Builtin

open MonadExcept (ofExcept)

/-- In any context the work has `k` results, or it fails because of its operands. -/
def Yields (k : Nat) (act : Action (List Value)) : Prop :=
  ∀ c, Ends act c (fun results _ => results.length = k) fun fault _ => fault.ofOperands = true

namespace Yields

theorem pure (results : List Value) : Yields results.length (Pure.pure results) := fun _ => rfl

theorem ofExcept {α : Type} {x : Except Fault α} (h : FromOperands x) (f : α → Value) :
    Yields 1 (do return [f (← MonadExcept.ofExcept x)]) := by
  cases x with
  | ok a => exact fun _ => rfl
  | error e => exact fun _ => h e rfl

theorem get (f : Context → Option String) (default : Value) :
    Yields 1 (do return orDefault (f (← MonadState.get)) default) := fun _ => rfl

theorem modify (f : Context → Context) : Yields 0 (do modify f; return []) := fun _ => rfl

/-- The results stand in the place of the operands, on what was below these. -/
theorem append {k : Nat} {act : Action (List Value)} (h : Yields k act) (rest : List Value)
    (c : Context) : Ends (do return (← act) ++ rest) c
      (fun results _ => results.length = rest.length + k) fun fault _ => fault.ofOperands = true := by
  refine (h c).bind fun results _ hresults => ?_
  show (results ++ rest).length = rest.length + k
  rw [List.length_append, hresults, Nat.add_comm]

end Yields

/-- A behaviour that does so, whatever the operands. -/
def Behaviour.Yields (k : Nat) : Behaviour → Prop
  | .unary act => ∀ x, Builtin.Yields k (act x)
  | .binary act => ∀ x y, Builtin.Yields k (act x y)

theorem yields_behaviour (f : Builtin) : f.behaviour.Yields f.arity.produced := by
  cases f with
  | sin =>
    intro x
    have hx : FromOperands x.toDouble := (Value.fromOperands_toNumber x).map
    exact .ofExcept hx fun x => .double x.sinDegrees
  | decfmt => exact fun x pattern => .ofExcept (fromOperands_formatted x pattern) .text
  | dup => exact fun x => .pure [x, x]
  | swap => exact fun a b => .pure [a, b]
  | setMimeType => exact fun mime => .modify _
  | paramGet => exact fun name default => .get (·.parameters[name.display]?) default
  | pparamGet => exact fun name default => .get (·.persistent[name.display]?) default
  | tparamGet => exact fun name default => .get (·.temporary[name.display]?) default
  | pparamSet => exact fun value name => .modify _
  | tparamSet => exact fun value name => .modify _
  | pparamDel => exact fun name => .modify _
  | tparamDel => exact fun name => .modify _

theorem needed_arity (f : Builtin) : f.arity.needed = f.needed := by
  cases f <;> rfl

/-- A call either finds its operands, or it says that it does not. -/
theorem ends_call (f : Builtin) (stack : List Value) (c : Context) :
    Ends (f.call stack) c
      (fun results _ => f.arity.needed ≤ stack.length ∧
        results.length = f.arity.after stack.length)
      fun fault _ => fault.ofOperands = true ∨ stack.length < f.arity.needed ∧
        fault = .functionUnderflow f.name f.arity.needed stack.length := by
  have hyields := f.yields_behaviour
  have hneeded := f.needed_arity
  have hfault : Fault.functionUnderflow f.name f.needed stack.length =
      .functionUnderflow f.name f.arity.needed stack.length := by rw [hneeded]
  unfold call Arity.after
  cases hact : f.behaviour with
  | unary act =>
    have hone : f.needed = 1 := by rw [needed, hact]
    rw [hone] at hneeded
    rw [hact] at hyields
    cases stack with
    | nil => exact .inr ⟨by rw [hneeded]; exact Nat.zero_lt_one, hfault⟩
    | cons x rest =>
      refine ((hyields x).append rest c).imp (fun results _ hresults => ?_) fun _ _ => .inl
      rw [hneeded, List.length_cons]
      exact ⟨Nat.le_add_left _ _, hresults⟩
  | binary act =>
    have htwo : f.needed = 2 := by rw [needed, hact]
    rw [htwo] at hneeded
    rw [hact] at hyields
    match stack with
    | [] => exact .inr ⟨by rw [hneeded]; exact Nat.zero_lt_two, hfault⟩
    | [y] => exact .inr ⟨by rw [hneeded]; exact Nat.one_lt_two, hfault⟩
    | y :: x :: rest =>
      refine ((hyields x y).append rest c).imp (fun results _ hresults => ?_) fun _ _ => .inl
      rw [hneeded, List.length_cons, List.length_cons]
      exact ⟨Nat.le_add_left _ _, hresults⟩

theorem name_of_ofName? {name : String} {f : Builtin} (h : ofName? name = some f) :
    f.name = name := by
  unfold ofName? at h
  have hname := List.find?_some h
  exact eq_of_beq hname

end Builtin

/-! ## Elements -/

namespace Element

open Builtin (Action)
open MonadExcept (ofExcept)

/-- The step that all that follows is made of: the element finds the operands that it needs and
leaves the depth that belongs to it, and if it reports an underflow, it does not find them. -/
def Fits (e : Element) (depth : Nat) (act : Action (List Value)) : Prop :=
  ∀ c, Ends act c
    (fun results _ => e.arity.needed ≤ depth ∧ results.length = e.arity.after depth)
    fun fault _ => fault.isUnderflow = true → depth < e.arity.needed ∧ fault.Reports e depth

theorem fits_operate (symbol : Char) (stack : List Value) :
    (operator symbol).Fits stack.length (ofExcept (operate symbol stack)) := by
  intro c
  match stack with
  | [] => exact fun _ => ⟨Nat.zero_lt_two, rfl⟩
  | [y] => exact fun _ => ⟨Nat.one_lt_two, rfl⟩
  | rhs :: lhs :: rest =>
    unfold operate
    dsimp only
    cases hop : Operation.ofSymbol? symbol with
    | none => exact fun h => by cases h
    | some op =>
      dsimp only
      cases happly : Value.apply op lhs rhs with
      | ok n => exact ⟨Nat.le_add_left _ _, rfl⟩
      | error fault =>
        intro h
        rw [Fault.isUnderflow_eq_false (Value.fromOperands_apply op lhs rhs _ happly)] at h
        cases h

theorem fits_call {name : String} {f : Builtin} (hf : Builtin.ofName? name = some f)
    (stack : List Value) : (function name).Fits stack.length (f.call stack) := by
  have harity : (function name).arity = f.arity := by
    simp only [arity, hf]
  intro c
  rw [harity]
  refine (f.ends_call stack c).imp (fun _ _ => id) ?_
  rintro fault - (hoperands | ⟨hmissing, rfl⟩) h
  · rw [Fault.isUnderflow_eq_false hoperands] at h
    cases h
  · refine ⟨hmissing, ?_⟩
    rw [Fault.Reports, harity, Builtin.name_of_ofName? hf]

theorem fits_eval (b : Bindings) (e : Element) (stack : List Value) :
    e.Fits stack.length (e.eval b stack) := by
  cases e with
  | integer n => exact fun c => ⟨Nat.zero_le _, rfl⟩
  | double x => exact fun c => ⟨Nat.zero_le _, rfl⟩
  | string s => exact fun c => ⟨Nat.zero_le _, rfl⟩
  | var name =>
    intro c
    unfold eval Bindings.lookup
    dsimp only
    cases b.find? name with
    | none => exact fun h => by cases h
    | some v => exact ⟨Nat.zero_le _, rfl⟩
  | operator symbol => exact fits_operate symbol stack
  | function name =>
    unfold eval
    dsimp only
    split
    · rename_i f hf
      exact fits_call hf stack
    · exact fun c h => by cases h

/-! ## All elements of a tag -/

theorem shortage?_cons_of_le {e : Element} {depth : Nat} (h : e.arity.needed ≤ depth)
    (es : List Element) : shortage? (e :: es) depth = shortage? es (e.arity.after depth) := by
  rw [shortage?, if_neg (Nat.not_lt.2 h)]

theorem shortage?_cons_of_lt {e : Element} {depth : Nat} (h : depth < e.arity.needed)
    (es : List Element) : shortage? (e :: es) depth = some (e, depth) := by
  rw [shortage?, if_pos h]

theorem ends_evalAll (b : Bindings) (elements : List Element) (stack : List Value) (c : Context) :
    Ends (evalAll b elements stack) c
      (fun left _ => shortage? elements stack.length = none ∧
        left.length = depthAfter elements stack.length)
      fun fault _ => fault.isUnderflow = true → ∃ e available,
        shortage? elements stack.length = some (e, available) ∧ fault.Reports e available := by
  induction elements generalizing stack c with
  | nil => exact ⟨rfl, rfl⟩
  | cons e es ih =>
    unfold evalAll
    rw [List.foldlM_cons, Ends.bind_iff]
    refine (e.fits_eval b stack c).imp (fun next c' hnext => ?_) fun fault _ hfault hunder => ?_
    · obtain ⟨hneeded, hlength⟩ := hnext
      rw [shortage?_cons_of_le hneeded, ← hlength]
      refine (ih next c').imp (fun left _ hleft => ⟨hleft.1, ?_⟩) fun _ _ => id
      rw [hleft.2, hlength]
      rfl
    · obtain ⟨hmissing, hreports⟩ := hfault hunder
      exact ⟨e, stack.length, shortage?_cons_of_lt hmissing es, hreports⟩

end Element

/-! ## What is written -/

namespace Exec

variable {m : Machine}

theorem writeValue_unbounded (h : m.sink.room = none) (v : Value) :
    writeValue v m = .ok () { m with sink := ⟨m.sink.written ++ v.display, none⟩ } := by
  have hwrite (s : String) : write s m = .ok () { m with sink := ⟨m.sink.written ++ s, none⟩ } :=
    write_of_true (Sink.write_unbounded h s)
  cases v with
  | absent =>
    -- nothing is appended, which leaves even the sink as it is
    have hsink : m.sink = ⟨m.sink.written ++ "", none⟩ := by rw [String.append_empty, ← h]
    rw [Value.display, ← hsink]
    rfl
  | number n => exact hwrite _
  | text s => exact hwrite s

/-- A sink that takes everything gets what the values are printed as, one behind the other. -/
theorem forM_writeValue_unbounded (h : m.sink.room = none) (values : List Value) :
    values.forM writeValue m = .ok () { m with
      sink := ⟨m.sink.written ++ String.join (values.map Value.display), none⟩ } := by
  induction values generalizing m with
  | nil =>
    rw [List.map_nil, String.join_nil, String.append_empty, ← h]
    rfl
  | cons v values ih =>
    rw [List.forM, bind_of_ok (writeValue_unbounded h v), ih rfl, List.map_cons, String.join_cons,
      String.append_assoc]

/-- The lowest value of the stack comes first. -/
theorem echo_unbounded {elements : List Element} {stack : List Value} {c : Context}
    (h : m.sink.room = none)
    (heval : Element.evalAll m.bindings elements [] m.context = .ok stack c) :
    echo elements m = .ok () { m with
      sink := ⟨m.sink.written ++ String.join (stack.reverse.map Value.display), none⟩
      context := c } := by
  have hroom : ({ m with context := c } : Machine).sink.room = none := h
  rw [echo_of_ok heval]
  exact forM_writeValue_unbounded hroom stack.reverse

end Exec

variable {σ : Type} [Writer σ]

open Element (shortage? depthAfter evalAll)

/-- The depth of the stack is known from the elements of an echo tag. If none of them finds too
little, then in no context and under no bindings does one report an underflow, and an evaluation
that succeeds leaves as many values as were foreseen, all of which are written. Otherwise the
evaluation fails and nothing is written; and if it fails by an underflow, this is the one of the
first element that finds too little, and it tells the depth foreseen there. A sink that takes
everything gets the values as they are printed, from the bottom of the stack up. -/
theorem depth_follows_elements (elements : List Element) (m : MachineOn σ) :
    (shortage? elements 0 = none →
      (∃ stack c, evalAll m.bindings elements [] m.context = .ok stack c ∧
        stack.length = depthAfter elements 0 ∧
        Exec.echo elements m = stack.reverse.forM Exec.writeValue { m with context := c }) ∨
      ∃ fault c, evalAll m.bindings elements [] m.context = .error fault c ∧
        fault.isUnderflow = false ∧
        Exec.echo elements m = .error (.fault fault) { m with context := c }) ∧
    (∀ e available, shortage? elements 0 = some (e, available) →
      ∃ fault c, evalAll m.bindings elements [] m.context = .error fault c ∧
        (fault.isUnderflow = true → fault.Reports e available) ∧
        Exec.echo elements m = .error (.fault fault) { m with context := c }) ∧
    ∀ (n : Machine) (stack : List Value) (c : Context), n.sink.room = none →
      evalAll n.bindings elements [] n.context = .ok stack c →
      Exec.echo elements n = .ok () { n with
        sink := ⟨n.sink.written ++ String.join (stack.reverse.map Value.display), none⟩
        context := c } := by
  refine and_assoc.1 ⟨?_, fun n stack c hroom heval => Exec.echo_unbounded hroom heval⟩
  have hends := Element.ends_evalAll m.bindings elements [] m.context
  cases heval : evalAll m.bindings elements [] m.context with
  | ok stack c =>
    obtain ⟨hnone, hlength⟩ := (Ends.of_ok heval).1 hends
    constructor
    · exact fun _ => .inl ⟨stack, c, rfl, hlength, Exec.echo_of_ok heval⟩
    · intro e available hshort
      cases hnone.symm.trans hshort
  | error fault c =>
    have hunder := (Ends.of_error heval).1 hends
    constructor
    · intro hnone
      refine .inr ⟨fault, c, rfl, ?_, Exec.echo_of_error heval⟩
      refine Bool.eq_false_iff.2 fun h => ?_
      obtain ⟨e, available, hshort, -⟩ := hunder h
      cases hnone.symm.trans hshort
    · intro e available hshort
      refine ⟨fault, c, rfl, fun h => ?_, Exec.echo_of_error heval⟩
      obtain ⟨e', available', hshort', hreports⟩ := hunder h
      cases hshort'.symm.trans hshort
      exact hreports

example : shortage? [.string "x", .operator '+', .integer 1, .function "dup"] 0 =
    some (.operator '+', 1) := rfl

end TagTemplate
