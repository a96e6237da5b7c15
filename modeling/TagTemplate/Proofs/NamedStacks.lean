import Mathlib.Logic.Function.Basic
import TagTemplate.Actions
import TagTemplate.Proofs.NumericOperands

/-! Bindings as lists that know nothing of each other. What is asked of a name is answered from the
values of this name alone, and nothing else is changed by it; so bindings answer as a store does
that has a list for every name. They hold a name as long as its list is not empty, and a request
that cannot be met leaves them as they were. -/

namespace TagTemplate

namespace Value.Held

/-- What a value answers, and the value that takes its place. -/
def Command.result (v : Value) : Command → Except Fault (Reply × Value)
  | .update op operand => (v.apply op operand).map fun n => (.done, .number n)
  | .assign w => .ok (.done, w)
  | .compare operand => (v.compare operand).map fun o => (.order o, v)
  | .toNumeric => v.toNumeric.map fun w => (.value w, v)
  | .toDouble => v.toDouble.map fun x => (.double x, v)

theorem ends_look {α : Type} (look : Value → Except Fault α) (reply : α → Reply) (v : Value) :
    Ends (do return reply (← read look)) v
      (fun answer w => (look v).map (fun a => (reply a, v)) = .ok (answer, w))
      fun fault w => (look v).map (fun a => (reply a, v)) = .error fault ∧ w = v := by
  rw [Ends.bind_iff]
  refine (ends_read look v).imp ?_ ?_ <;> simp_all [Except.map]

/-- A command that fails leaves the value as it was. -/
theorem Command.ends_run (command : Command) (v : Value) :
    Ends command.run v (fun reply w => command.result v = .ok (reply, w))
      fun fault w => command.result v = .error fault ∧ w = v := by
  cases command with
  | update op operand =>
    rw [run, Ends.bind_iff]
    refine (ends_update op v operand).imp ?_ ?_ <;> simp_all [result, Except.map]
  | assign w => exact rfl
  | compare operand => exact ends_look (·.compare operand) .order v
  | toNumeric => exact ends_look Value.toNumeric .value v
  | toDouble => exact ends_look Value.toDouble .double v

end Value.Held

namespace Bindings

/-! ## Lists -/

/-- A list of values for every name. -/
abbrev Lists := String → List Value

/-- What a list answers for its name, and the list after it. -/
def Action.onList (name : String) : Action → List Value → Except Fault Reply × List Value
  | .push v, vs => (.ok .done, v :: vs)
  | .pop, v :: rest => (.ok (.value v), rest)
  | .peek, v :: rest => (.ok (.value v), v :: rest)
  | .isEmpty, vs => (.ok (.isEmpty vs.isEmpty), vs)
  | .update command, v :: rest =>
    match command.result v with
    | .ok (reply, w) => (.ok (.held reply), w :: rest)
    | .error e => (.error e, v :: rest)
  | _, [] => (.error (.emptyStack name), [])

/-- The list of a name answers, and the other lists stay. -/
def Lists.perform (lists : Lists) (name : String) (act : Action) : Except Fault Reply × Lists :=
  let (reply, vs) := act.onList name (lists name)
  (reply, Function.update lists name vs)

/-- A list that cannot answer stays as it is. -/
theorem Action.onList_error {name : String} {act : Action} {vs : List Value} {fault : Fault}
    (h : (act.onList name vs).1 = .error fault) : (act.onList name vs).2 = vs := by
  cases act with
  | push v => cases h
  | isEmpty => cases h
  | pop =>
    cases vs with
    | nil => rfl
    | cons v rest => cases h
  | peek => cases vs <;> rfl
  | update command =>
    cases vs with
    | nil => rfl
    | cons v rest =>
      simp only [onList] at h ⊢
      cases hresult : command.result v with
      | ok answer => simp [hresult] at h
      | error e => rfl

/-! ## One request -/

section

variable {b : Bindings} {name : String} {α : Type}

theorem onTop_of_nil (hs : b.stack name = []) (act : Value.Held α) :
    b.onTop name act = (.error (.emptyStack name), b) := by
  simp [onTop, peek, find?, hs]

/-- The value that is left takes the place of the innermost one, also where the work fails. -/
theorem onTop_of_cons {v : Value} {rest : List Value} (hs : b.stack name = v :: rest)
    (act : Value.Held α) :
    b.onTop name act = match act v with
      | .ok a w => (.ok a, b.withStack name (w :: rest))
      | .error e w => (.error e, b.withStack name (w :: rest)) := by
  cases hact : act v <;> simp [onTop, peek, find?, rebind, hs, hact]

end

/-- Bindings answer from the stack of the name, and put another one in its place. -/
theorem perform_eq (b : Bindings) (name : String) (act : Action) :
    b.perform name act = ((act.onList name (b.stack name)).1,
      b.withStack name (act.onList name (b.stack name)).2) := by
  have hkeep := b.withStack_stack name
  cases act with
  | push v => rfl
  | isEmpty => cases hs : b.stack name <;> simp_all [perform, isBound, find?, Action.onList]
  | pop => cases hs : b.stack name <;> simp_all [perform, unbind, Action.onList]
  | peek =>
    cases hs : b.stack name <;>
      simp_all [perform, Bindings.peek, find?, Action.onList, Except.map]
  | update command =>
    cases hs : b.stack name with
    | nil =>
      rw [hs] at hkeep
      simp [perform, onTop_of_nil hs, Action.onList, hkeep, Except.map]
    | cons v rest =>
      have hends := command.ends_run v
      cases hrun : command.run v with
      | ok reply w =>
        rw [Ends.of_ok hrun] at hends
        simp [perform, onTop_of_cons hs, hrun, Action.onList, hends, Except.map]
      | error fault w =>
        rw [Ends.of_error hrun] at hends
        obtain ⟨hresult, rfl⟩ := hends
        simp [perform, onTop_of_cons hs, hrun, Action.onList, hresult, Except.map]

/-- The stacks are lists that answer in the same way. -/
theorem perform_refines (b : Bindings) (name : String) (act : Action) :
    (b.perform name act).1 = (Lists.perform b.stack name act).1 ∧
      (b.perform name act).2.stack = (Lists.perform b.stack name act).2 := by
  rw [perform_eq]
  refine ⟨rfl, funext fun key => ?_⟩
  rw [stack_withStack]
  by_cases hkey : name = key
  · subst hkey
    simp [Lists.perform]
  · simp [Lists.perform, hkey, Ne.symm hkey]

theorem perform_error {b : Bindings} {name : String} {act : Action} {fault : Fault}
    (h : (b.perform name act).1 = .error fault) : (b.perform name act).2 = b := by
  rw [perform_eq] at h ⊢
  rw [Action.onList_error h, withStack_stack]

/-- A name is held as long as something is bound to it. -/
theorem mem_stored_iff (b : Bindings) (name : String) : name ∈ b.stored ↔ b.stack name ≠ [] := by
  have hsome := b.nonempty name
  rw [Std.ExtTreeMap.mem_iff_isSome_getElem?, stack]
  cases hs : b.stored[name]? with
  | none => simp
  | some vs =>
    rw [hs] at hsome
    simpa using hsome

/-! ## One request after the other -/

/-- The answers to all requests; one that cannot be met does not keep the later ones from being
answered. -/
def performAll {σ : Type} (perform : σ → String → Action → Except Fault Reply × σ) (s : σ) :
    List (String × Action) → List (String × Except Fault Reply) × σ
  | [] => ([], s)
  | (name, act) :: rest =>
    let (reply, s) := perform s name act
    let (replies, s) := performAll perform s rest
    ((name, reply) :: replies, s)

/-- Bindings that start with no name. -/
def run (actions : List (String × Action)) : List (String × Except Fault Reply) × Bindings :=
  performAll perform empty actions

/-- Lists that start with no values. -/
def Lists.run (actions : List (String × Action)) : List (String × Except Fault Reply) × Lists :=
  performAll Lists.perform (fun _ => []) actions

theorem performAll_refines (b : Bindings) (actions : List (String × Action)) :
    (performAll perform b actions).1 = (performAll Lists.perform b.stack actions).1 ∧
      (performAll perform b actions).2.stack = (performAll Lists.perform b.stack actions).2 := by
  induction actions generalizing b with
  | nil => exact ⟨rfl, rfl⟩
  | cons request rest ih =>
    obtain ⟨name, act⟩ := request
    obtain ⟨hreply, hstack⟩ := perform_refines b name act
    obtain ⟨hreplies, hlast⟩ := ih (b.perform name act).2
    rw [hstack] at hreplies hlast
    simp only [performAll]
    exact ⟨by rw [hreply, hreplies], hlast⟩

/-- The answers of a name depend on its own list and on the requests at it. -/
theorem Lists.performAll_filter (name : String) (actions : List (String × Action))
    {lists lists' : Lists} (h : lists name = lists' name) :
    (performAll Lists.perform lists actions).1.filter (·.1 = name) =
      (performAll Lists.perform lists' (actions.filter (·.1 = name))).1 := by
  induction actions generalizing lists lists' with
  | nil => rfl
  | cons request rest ih =>
    obtain ⟨key, act⟩ := request
    by_cases hkey : key = name
    · subst hkey
      have hnext : (lists.perform key act).2 key = (lists'.perform key act).2 key := by
        simp [Lists.perform, h]
      simp only [performAll, List.filter_cons, decide_true, if_true, ih hnext]
      simp [Lists.perform, h]
    · have hnext : (lists.perform key act).2 name = lists' name := by
        simp [Lists.perform, Ne.symm hkey, h]
      simp [performAll, hkey, ih hnext]

/-- Bindings answer all requests as lists do, which know nothing of each other: what a name answers
follows from the requests at it. They hold the names whose lists are not empty, and a request that
fails leaves them as they were. -/
theorem bindings_refine_lists (actions : List (String × Action)) :
    (run actions).1 = (Lists.run actions).1 ∧
    (run actions).2.stack = (Lists.run actions).2 ∧
    (∀ name, name ∈ (run actions).2.stored ↔ (Lists.run actions).2 name ≠ []) ∧
    (∀ name, (run actions).1.filter (·.1 = name) = (run (actions.filter (·.1 = name))).1) ∧
    ∀ name act fault, ((run actions).2.perform name act).1 = .error fault →
      ((run actions).2.perform name act).2 = (run actions).2 := by
  have hempty : empty.stack = fun _ => [] := by
    funext name
    simp [stack, empty]
  have hrefines (actions : List (String × Action)) :
      (run actions).1 = (Lists.run actions).1 ∧ (run actions).2.stack = (Lists.run actions).2 := by
    have h := performAll_refines empty actions
    rwa [hempty] at h
  obtain ⟨hreplies, hlists⟩ := hrefines actions
  refine ⟨hreplies, hlists, fun name => ?_, fun name => ?_, fun name act fault => perform_error⟩
  · rw [mem_stored_iff, hlists]
  · rw [hreplies, (hrefines _).1]
    exact Lists.performAll_filter name actions rfl

/-- A text is drained and pushed again between the requests at a number. -/
def interleaved : List (String × Action) :=
  [("a", .push (.text "x")), ("b", .push (.integer 1)), ("a", .pop), ("a", .peek),
    ("b", .update (.update .add (.integer 1))), ("a", .push (.text "x")), ("b", .pop)]

theorem bindings_refine_lists_interleaved :
    (run interleaved).1 = [("a", .ok .done), ("b", .ok .done), ("a", .ok (.value (.text "x"))),
      ("a", .error (.emptyStack "a")), ("b", .ok (.held .done)), ("a", .ok .done),
      ("b", .ok (.value (.integer 2)))] ∧
    "a" ∈ (run interleaved).2.stored ∧
    "b" ∉ (run interleaved).2.stored ∧
    ((run interleaved).2.perform "a" (.update (.update .add (.integer 1)))).1 =
      .error (.notANumber "x") ∧
    ((run interleaved).2.perform "a" (.update (.update .add (.integer 1)))).2 =
      (run interleaved).2 := by
  obtain ⟨hreplies, hlists, hstored, -, hfails⟩ := bindings_refine_lists interleaved
  have hfault : ((run interleaved).2.perform "a" (.update (.update .add (.integer 1)))).1 =
      .error (.notANumber "x") := by
    rw [(perform_refines _ _ _).1, hlists]
    rfl
  refine ⟨?_, ?_, ?_, hfault, hfails _ _ _ hfault⟩
  · rw [hreplies]
    rfl
  · rw [hstored]
    simp [Lists.run, interleaved, performAll, Lists.perform, Action.onList]
  · rw [hstored]
    exact fun hne => hne rfl

end Bindings

end TagTemplate
