import Std.Data.ExtTreeMap.Lemmas
import TagTemplate.Value

/-! Values bound to names. Every name has a stack of its own, the innermost value first: a later
binding hides the earlier ones until it is removed, and other names are not touched. A name is kept
only as long as its stack holds something. -/

namespace TagTemplate

structure Bindings where
  stored : Std.ExtTreeMap String (List Value)
  nonempty : ∀ name : String, stored[name]? ≠ some []

namespace Bindings

def empty : Bindings := ⟨∅, by simp⟩

/-- All values of a name, the innermost first. -/
def stack (b : Bindings) (name : String) : List Value := b.stored[name]?.getD []

/-- Gives a name another stack; the name goes when nothing is left of it. -/
def withStack (b : Bindings) (name : String) : List Value → Bindings
  | [] => ⟨b.stored.erase name, fun key => by
      rw [Std.ExtTreeMap.getElem?_erase]; split
      · simp
      · exact b.nonempty key⟩
  | v :: rest => ⟨b.stored.insert name (v :: rest), fun key => by
      rw [Std.ExtTreeMap.getElem?_insert]; split
      · simp
      · exact b.nonempty key⟩

def bind (b : Bindings) (name : String) (v : Value) : Bindings :=
  b.withStack name (v :: b.stack name)

def find? (b : Bindings) (name : String) : Option Value := (b.stack name).head?

def isBound (b : Bindings) (name : String) : Bool := (b.find? name).isSome

/-- The value of a variable. -/
def lookup (b : Bindings) (name : String) : Except Fault Value :=
  match b.find? name with
  | some v => .ok v
  | none => .error (.unboundVariable name)

def peek (b : Bindings) (name : String) : Except Fault Value :=
  match b.find? name with
  | some v => .ok v
  | none => .error (.emptyStack name)

/-- Removes the innermost binding of a name and returns its value. -/
def unbind (b : Bindings) (name : String) : Except Fault (Value × Bindings) :=
  match b.stack name with
  | v :: rest => .ok (v, b.withStack name rest)
  | [] => .error (.emptyStack name)

/-- Changes the innermost value of a name, where there is one. -/
def rebind (b : Bindings) (name : String) (v : Value) : Bindings :=
  match b.stack name with
  | _ :: rest => b.withStack name (v :: rest)
  | [] => b

/-- Bindings are known by the stacks of their names. -/
theorem ext_stack {a b : Bindings} (h : ∀ name, a.stack name = b.stack name) : a = b := by
  have hstored : a.stored = b.stored := by
    apply Std.ExtTreeMap.ext_getElem?
    intro name
    have hname := h name
    unfold stack at hname
    cases ha : a.stored[name]? with
    | none =>
      cases hb : b.stored[name]? with
      | none => rfl
      | some vs =>
        rw [ha, hb] at hname
        exact absurd (hb.trans (congrArg some hname.symm)) (b.nonempty name)
    | some us =>
      cases hb : b.stored[name]? with
      | none =>
        rw [ha, hb] at hname
        exact absurd (ha.trans (congrArg some hname)) (a.nonempty name)
      | some vs => rw [ha, hb] at hname; exact congrArg some hname
  cases a; cases b; cases hstored; rfl

theorem stack_withStack (b : Bindings) (name : String) (vs : List Value) (key : String) :
    (b.withStack name vs).stack key = if name = key then vs else b.stack key := by
  cases vs <;>
    simp only [stack, withStack, Std.ExtTreeMap.getElem?_erase, Std.ExtTreeMap.getElem?_insert,
      Std.compare_eq_iff_eq] <;>
    split <;> rfl

@[simp] theorem find?_empty {name : String} : empty.find? name = none := by
  simp [find?, stack, empty]

@[simp] theorem stack_bind_self (b : Bindings) (name : String) (v : Value) :
    (b.bind name v).stack name = v :: b.stack name := by
  simp [bind, stack_withStack]

@[simp] theorem find?_bind_self (b : Bindings) (name : String) (v : Value) :
    (b.bind name v).find? name = some v := by
  simp [find?]

@[simp] theorem peek_bind_self (b : Bindings) (name : String) (v : Value) :
    (b.bind name v).peek name = .ok v := by
  simp [peek]

theorem find?_bind (b : Bindings) (name : String) (v : Value) (key : String) :
    (b.bind name v).find? key = if name = key then some v else b.find? key := by
  simp only [find?, bind, stack_withStack]
  split <;> rfl

theorem lookup_bind (b : Bindings) (name : String) (v : Value) (key : String) :
    (b.bind name v).lookup key = if name = key then .ok v else b.lookup key := by
  unfold lookup
  rw [find?_bind]
  by_cases hkey : name = key
  · simp [hkey]
  · simp [hkey]

@[simp] theorem withStack_withStack (b : Bindings) (name : String) (us vs : List Value) :
    (b.withStack name us).withStack name vs = b.withStack name vs := by
  apply ext_stack
  intro key
  simp only [stack_withStack]
  split <;> rfl

@[simp] theorem withStack_stack (b : Bindings) (name : String) :
    b.withStack name (b.stack name) = b := by
  apply ext_stack
  intro key
  rw [stack_withStack]
  split
  · rename_i hkey; rw [hkey]
  · rfl

/-- A binding can be removed again. -/
@[simp] theorem unbind_bind (b : Bindings) (name : String) (v : Value) :
    (b.bind name v).unbind name = .ok (v, b) := by
  unfold unbind
  rw [stack_bind_self]
  simp [bind]

@[simp] theorem rebind_bind (b : Bindings) (name : String) (v w : Value) :
    (b.bind name v).rebind name w = b.bind name w := by
  unfold rebind
  rw [stack_bind_self]
  simp [bind]

end Bindings

end TagTemplate
