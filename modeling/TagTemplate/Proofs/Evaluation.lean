import TagTemplate.Proofs.Ends
import TagTemplate.Run

/-! What evaluation cannot do. Elements read the bindings and work on the context, but they leave
alone the bindings, the count of iterations, the plain parameters and the iteration limit, and the
faults that belong to loops are not theirs. -/

namespace TagTemplate

variable {α β : Type}

/-- The faults that only a loop can raise. -/
def Fault.ofLoop : Fault → Bool
  | .emptyStack _ | .zeroStep _ | .iterationLimit _ => true
  | _ => false

/-- The faults of values: of their conversion, of arithmetic and of functions. -/
def Fault.ofValues : Fault → Bool
  | .unboundVariable _ | .emptyStack _ | .zeroStep _ | .iterationLimit _ | .outputFull => false
  | _ => true

/-- The faults of the operands themselves, whatever their number. -/
def Fault.ofOperands : Fault → Bool
  | .notANumber _ | .divisionByZero | .overflow _ | .invalidExponent _ | .typeMismatch .. |
    .invalidFormat _ => true
  | _ => false

theorem Fault.ofValues_of_ofOperands {e : Fault} (h : e.ofOperands = true) : e.ofValues = true := by
  cases e <;> first | rfl | cases h

theorem Fault.ofLoop_eq_false {e : Fault} (h : e.ofValues = true) : e.ofLoop = false := by
  cases e <;> first | rfl | cases h

theorem bind_eq_ok_iff {ε α β : Type} {x : Except ε α} {f : α → Except ε β} {b : β} :
    (x >>= f) = .ok b ↔ ∃ a, x = .ok a ∧ f a = .ok b := by
  cases x with
  | ok a => simp [bind, Except.bind]
  | error e => simp [bind, Except.bind]

/-- Fails, if at all, with one of some faults. -/
def Raises (faults : Fault → Prop) (x : Except Fault α) : Prop := ∀ e, x = .error e → faults e

/-- Fails, if at all, with a fault that is not one of the loops. -/
abbrev Plain (x : Except Fault α) : Prop := Raises (·.ofLoop = false) x

/-- Fails, if at all, because of the values it works on. -/
abbrev FromValues (x : Except Fault α) : Prop := Raises (·.ofValues = true) x

/-- Fails, if at all, because of what its operands are. -/
abbrev FromOperands (x : Except Fault α) : Prop := Raises (·.ofOperands = true) x

namespace Raises

variable {faults faults' : Fault → Prop}

theorem ok (a : α) : Raises faults (.ok a) := fun _ h => by cases h

theorem error {e : Fault} (he : faults e) : Raises faults (.error e : Except Fault α) := by
  intro _ h; cases h; exact he

theorem bind {x : Except Fault α} {f : α → Except Fault β} (h : Raises faults x)
    (hf : ∀ a, Raises faults (f a)) : Raises faults (x >>= f) := by
  cases x with
  | ok a => exact hf a
  | error e => exact error (h e rfl)

theorem map {x : Except Fault α} {f : α → β} (h : Raises faults x) : Raises faults (x.map f) := by
  cases x with
  | ok a => exact ok _
  | error e => exact error (h e rfl)

theorem imp {x : Except Fault α} (h : Raises faults x) (hfaults : ∀ e, faults e → faults' e) :
    Raises faults' x := fun e he => hfaults e (h e he)

theorem fromValues {x : Except Fault α} (h : FromOperands x) : FromValues x :=
  h.imp fun _ => Fault.ofValues_of_ofOperands

theorem plain {x : Except Fault α} (h : FromValues x) : Plain x :=
  h.imp fun _ => Fault.ofLoop_eq_false

end Raises

/-! ## Numbers and values -/

namespace Number

/-- Arithmetic tells two integers from all other pairs of numbers. -/
theorem of_kinds {p : Number → Number → Prop} (hintegers : ∀ a b, p (.integer a) (.integer b))
    (hright : ∀ a y, p (.integer a) (.double y)) (hleft : ∀ x y, p (.double x) y)
    (x y : Number) : p x y := by
  cases x with
  | double x => exact hleft x y
  | integer a =>
    cases y with
    | double y => exact hright a y
    | integer b => exact hintegers a b

theorem fromOperands_ofExact (op : Operation) (n : Option Int32) : FromOperands (ofExact op n) := by
  cases n with
  | none => exact Raises.error rfl
  | some n => exact Raises.ok _

theorem fromOperands_div (x y : Number) : FromOperands (x.div y) := by
  unfold div; split
  · exact Raises.error rfl
  · split
    · exact fromOperands_ofExact _ _
    · exact Raises.ok _

theorem fromOperands_pow (base : Number) (exponent : Nat) : FromOperands (base.pow exponent) := by
  unfold pow; split
  · exact fromOperands_ofExact _ _
  · exact Raises.ok _

end Number

namespace Value

theorem raises_toNumber (v : Value) :
    Raises (fun e => ∃ text, e = .notANumber text) v.toNumber := by
  unfold toNumber; split
  · exact Raises.ok _
  · exact Raises.ok _
  · split
    · exact Raises.ok _
    · exact Raises.error ⟨_, rfl⟩

theorem fromOperands_toNumber (v : Value) : FromOperands v.toNumber :=
  v.raises_toNumber.imp fun _ ⟨_, h⟩ => by rw [h]; rfl

theorem fromOperands_apply (op : Operation) (lhs rhs : Value) : FromOperands (apply op lhs rhs) := by
  have both (f : Number → Number → Except Fault Number) (hf : ∀ x y, FromOperands (f x y)) :
      FromOperands (do f (← lhs.toNumber) (← rhs.toNumber)) :=
    lhs.fromOperands_toNumber.bind fun x => rhs.fromOperands_toNumber.bind (hf x)
  cases op with
  | add | subtract | multiply =>
    refine both _ (Number.of_kinds ?_ ?_ ?_)
    · exact fun _ _ => Number.fromOperands_ofExact _ _
    · exact fun _ _ => Raises.ok _
    · exact fun _ _ => Raises.ok _
  | divide => exact both _ Number.fromOperands_div
  | power =>
    refine rhs.fromOperands_toNumber.bind fun n => ?_
    cases n with
    | double x => exact Raises.error rfl
    | integer exponent =>
      dsimp only
      split
      · exact Raises.error rfl
      · exact lhs.fromOperands_toNumber.bind fun base => Number.fromOperands_pow base _

/-- A comparison fails on a text that is no number and on a NaN. -/
theorem raises_compare (lhs rhs : Value) :
    Raises (fun e => ∃ text, e = .notANumber text) (lhs.compare rhs) := by
  refine (raises_toNumber lhs).bind fun l => (raises_toNumber rhs).bind fun r => ?_
  split
  · exact Raises.ok _
  · exact Raises.error ⟨_, rfl⟩

end Value

theorem Bindings.plain_lookup (b : Bindings) (name : String) : Plain (b.lookup name) := by
  unfold lookup; split
  · exact Raises.ok _
  · exact Raises.error rfl

namespace Element

theorem fromValues_operate (symbol : Char) (stack : List Value) :
    FromValues (operate symbol stack) := by
  unfold operate; split
  · split
    · exact (Value.fromOperands_apply _ _ _).map.fromValues
    · exact Raises.error rfl
  · exact Raises.error rfl

/-- A bound that is no variable does not depend on the bindings. -/
theorem fromValues_bound (b : Bindings) {e : Element} (hvar : ∀ name, e ≠ .var name) :
    FromValues (e.bound b) := by
  cases e with
  | integer n => exact Raises.ok _
  | double x => exact Raises.ok _
  | string s => exact (Value.fromOperands_toNumber (.text s)).fromValues
  | var name => exact absurd rfl (hvar name)
  | function name => exact Raises.error rfl
  | operator symbol => exact Raises.error rfl

theorem plain_bound (b : Bindings) (e : Element) : Plain (e.bound b) := by
  by_cases hvar : ∃ name, e = .var name
  · obtain ⟨name, rfl⟩ := hvar
    exact (b.plain_lookup name).bind fun v => v.fromOperands_toNumber.fromValues.plain
  · exact (fromValues_bound b fun name hname => hvar ⟨name, hname⟩).plain

end Element

/-! ## Functions -/

/-- What a template cannot change in a context. -/
def Context.fixed (c : Context) : Parameters × Option Nat := (c.parameters, c.maxLoopIterations)

/-- The work leaves alone what templates cannot change, and raises no fault of a loop. -/
abbrev Builtin.Tame (act : Builtin.Action α) : Prop :=
  Keeps Context.fixed (·.ofLoop = false) act

/-- The work leaves alone what templates cannot change, and fails only because of the values. -/
abbrev Builtin.OnValues (act : Builtin.Action α) : Prop :=
  Keeps Context.fixed (·.ofValues = true) act

namespace Builtin

open MonadExcept (ofExcept)

theorem OnValues.tame {act : Action α} (h : OnValues act) : Tame act :=
  h.imp id fun _ => Fault.ofLoop_eq_false

theorem keeps_ofExcept {γ : Type} {view : Context → γ} {faults : Fault → Prop}
    {x : Except Fault α} (h : Raises faults x) : Keeps view faults (ofExcept x : Action α) := by
  cases x with
  | ok a => exact Keeps.pure a
  | error e => exact Keeps.throw (h e rfl)

theorem fromOperands_formatted (x pattern : Value) : FromOperands (formatted x pattern) := by
  unfold formatted; split
  · refine (Value.fromOperands_toNumber x).map.bind fun x => ?_
    split
    · exact Raises.ok _
    · exact Raises.error rfl
  · exact Raises.error rfl

/-- A function that changes the context and has no results. -/
theorem onValues_modify {f : Context → Context} (h : ∀ c, (f c).fixed = c.fixed) :
    OnValues (do modify f; return ([] : List Value)) :=
  Keeps.bind (Keeps.modify h) fun _ => Keeps.pure _

/-- A function that only reads the context. -/
theorem onValues_get (f : Context → List Value) : OnValues (do return f (← get)) :=
  Keeps.bind Keeps.get fun _ => Keeps.pure _

/-- A behaviour that does so, whatever the operands. -/
def Behaviour.OnValues : Behaviour → Prop
  | .unary act => ∀ x, Builtin.OnValues (act x)
  | .binary act => ∀ x y, Builtin.OnValues (act x y)

theorem onValues_behaviour (f : Builtin) : f.behaviour.OnValues := by
  cases f with
  | sin =>
    exact fun x =>
      (keeps_ofExcept (Value.fromOperands_toNumber x).map.fromValues).bind fun _ => Keeps.pure _
  | decfmt =>
    exact fun x y =>
      (keeps_ofExcept (fromOperands_formatted x y).fromValues).bind fun _ => Keeps.pure _
  | dup => exact fun _ => Keeps.pure _
  | swap => exact fun _ _ => Keeps.pure _
  | setMimeType => exact fun _ => onValues_modify fun _ => rfl
  | paramGet => exact fun _ _ => onValues_get _
  | pparamGet => exact fun _ _ => onValues_get _
  | tparamGet => exact fun _ _ => onValues_get _
  | pparamSet => exact fun _ _ => onValues_modify fun _ => rfl
  | tparamSet => exact fun _ _ => onValues_modify fun _ => rfl
  | pparamDel => exact fun _ => onValues_modify fun _ => rfl
  | tparamDel => exact fun _ => onValues_modify fun _ => rfl

theorem onValues_call (f : Builtin) (stack : List Value) : OnValues (f.call stack) := by
  have h := f.onValues_behaviour
  unfold call
  split
  · rename_i act x rest hb
    rw [hb] at h
    exact (h x).bind fun _ => Keeps.pure _
  · rename_i act y x rest hb
    rw [hb] at h
    exact (h x y).bind fun _ => Keeps.pure _
  · exact Keeps.throw rfl

end Builtin

namespace Element

open Builtin

/-- Only a variable can fail because of the bindings. -/
theorem onValues_eval (b : Bindings) {e : Element} (stack : List Value)
    (hvar : ∀ name, e ≠ .var name) : OnValues (e.eval b stack) := by
  cases e with
  | integer n => exact Keeps.pure _
  | double x => exact Keeps.pure _
  | string s => exact Keeps.pure _
  | var name => exact absurd rfl (hvar name)
  | operator symbol => exact keeps_ofExcept (fromValues_operate symbol stack)
  | function name =>
    simp only [eval]
    split
    · exact onValues_call _ stack
    · exact Keeps.throw rfl

theorem tame_eval (b : Bindings) (e : Element) (stack : List Value) : Tame (e.eval b stack) := by
  by_cases hvar : ∃ name, e = .var name
  · obtain ⟨name, rfl⟩ := hvar
    exact (keeps_ofExcept (b.plain_lookup name)).bind fun _ => Keeps.pure _
  · exact (onValues_eval b stack fun name hname => hvar ⟨name, hname⟩).tame

theorem tame_evalAll (b : Bindings) (elements : List Element) (stack : List Value) :
    Tame (evalAll b elements stack) :=
  Keeps.foldlM (fun stack e => tame_eval b e stack) elements stack

end Element

/-! ## Echo tags -/

variable {σ : Type}

/-- What text and echo tags leave alone. -/
def MachineOn.frame (m : MachineOn σ) : Bindings × Nat × Parameters × Option Nat :=
  (m.bindings, m.iterations, m.context.fixed)

/-- What output leaves alone. -/
def MachineOn.besideSink (m : MachineOn σ) : Bindings × Nat × Context :=
  (m.bindings, m.iterations, m.context)

/-- A halt by a fault that is not one of the loops. -/
def Halt.Plain (h : Halt) : Prop := ∃ e, h = .fault e ∧ e.ofLoop = false

namespace Exec

theorem keeps_onContext {act : Builtin.Action α} (h : Builtin.Tame act) :
    Keeps MachineOn.frame Halt.Plain (onContext act : Exec σ α) := by
  intro m
  have hc := h m.context
  unfold Ends at hc ⊢
  unfold onContext
  cases hact : act m.context with
  | ok a c =>
    rw [hact] at hc
    change (m.bindings, m.iterations, c.fixed) = (m.bindings, m.iterations, m.context.fixed)
    rw [hc]
  | error e c =>
    rw [hact] at hc
    refine ⟨?_, e, rfl, hc.2⟩
    change (m.bindings, m.iterations, c.fixed) = (m.bindings, m.iterations, m.context.fixed)
    rw [hc.1]

theorem plain_of_output {act : Exec σ Unit}
    (h : Keeps MachineOn.besideSink (· = .fault .outputFull) act) :
    Keeps MachineOn.frame Halt.Plain act :=
  h.imp (fun (b, n, c) => (b, n, c.fixed)) fun _ he => ⟨.outputFull, he, rfl⟩

variable [Writer σ]

section

variable {m : MachineOn σ} {elements : List Element} {c : Context}

theorem echo_eq (elements : List Element) (m : MachineOn σ) : echo elements m =
    (onContext (Element.evalAll m.bindings elements []) >>=
      fun stack : List Value => stack.reverse.forM writeValue) m := rfl

/-- What is left on the stack is written, in the context that the evaluation has left. -/
theorem echo_of_ok {stack : List Value}
    (h : Element.evalAll m.bindings elements [] m.context = .ok stack c) :
    echo elements m = stack.reverse.forM writeValue { m with context := c } := by
  have hstack : onContext (Element.evalAll m.bindings elements []) m =
      .ok stack { m with context := c } := by
    unfold onContext
    rw [h]
  rw [echo_eq, bind_of_ok hstack]

/-- Nothing is written where the evaluation fails. -/
theorem echo_of_error {fault : Fault}
    (h : Element.evalAll m.bindings elements [] m.context = .error fault c) :
    echo elements m = .error (.fault fault) { m with context := c } := by
  have hstack : onContext (Element.evalAll m.bindings elements []) m =
      .error (.fault fault) { m with context := c } := by
    unfold onContext
    rw [h]
  rw [echo_eq, bind_of_error hstack]

theorem write_of_true {s : String} {sink : σ} (h : Writer.write m.sink s = (true, sink)) :
    write s m = .ok () { m with sink } := by
  unfold write
  rw [h]

theorem write_of_false {s : String} {sink : σ} (h : Writer.write m.sink s = (false, sink)) :
    write s m = .error (.fault .outputFull) { m with sink } := by
  unfold write
  rw [h]

end

/-- Output fails only for want of room. -/
theorem output_write (s : String) :
    Keeps MachineOn.besideSink (· = .fault .outputFull) (write s : Exec σ Unit) := by
  intro m
  unfold Ends write
  cases hw : Writer.write m.sink s with
  | mk done sink =>
    cases done with
    | true => rfl
    | false => exact ⟨rfl, rfl⟩

theorem output_writeValue (v : Value) :
    Keeps MachineOn.besideSink (· = .fault .outputFull) (writeValue v : Exec σ Unit) := by
  cases v with
  | absent => exact Keeps.pure _
  | number n => exact output_write _
  | text s => exact output_write _

theorem keeps_write (s : String) : Keeps MachineOn.frame Halt.Plain (write s : Exec σ Unit) :=
  plain_of_output (output_write s)

theorem keeps_echo (elements : List Element) :
    Keeps MachineOn.frame Halt.Plain (echo elements : Exec σ Unit) :=
  Keeps.get.bind fun _ => (keeps_onContext (Element.tame_evalAll _ _ _)).bind fun _ =>
    plain_of_output (Keeps.forM output_writeValue _)

end Exec

end TagTemplate
