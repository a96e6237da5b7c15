import TagTemplate.Proofs.Loops

/-! The variables of a machine after a run are those from before. A loop puts its variable on top
of a stack, the rounds change that one value only, and it goes again whether they succeed or fail;
so the loop never finds the stack of its variable empty. -/

namespace TagTemplate

variable {σ : Type}

/-- Not by a stack of values that was found empty. -/
def Halt.FoundValue (h : Halt) : Prop := ∀ name, h ≠ .fault (.emptyStack name)

theorem Halt.Plain.foundValue {h : Halt} (hp : h.Plain) : h.FoundValue := by
  rintro name rfl
  obtain ⟨e, he, hloop⟩ := hp
  cases he
  cases hloop

namespace Exec

/-- The bindings afterwards are those from before, however the computation ends. -/
abbrev Scoped (act : Exec σ Unit) : Prop := Keeps MachineOn.bindings Halt.FoundValue act

/-- The bindings of the machine are those of `b` with one more value of a name. -/
def OnTop (b : Bindings) (name : String) (m : MachineOn σ) : Prop :=
  ∃ v, m.bindings = b.bind name v

theorem OnTop.find? {b : Bindings} {name : String} {m : MachineOn σ} (h : OnTop b name m) :
    ∃ v, m.bindings.find? name = some v := by
  obtain ⟨v, hv⟩ := h
  exact ⟨v, by rw [hv, Bindings.find?_bind_self]⟩

theorem onTop_nextRound {b : Bindings} {name : String} {m : MachineOn σ} (r : Bounds)
    (h : OnTop b name m) :
    Ends (nextRound name r) m (fun _ => OnTop b name)
      fun h m' => OnTop b name m' ∧ h.FoundValue := by
  obtain ⟨v, hv⟩ := h.find?
  refine (ends_nextRound r hv).imp ?_ ?_
  · rintro _ _ (⟨-, rfl⟩ | ⟨-, rfl, -⟩) <;> exact h
  · rintro _ _ (⟨rfl, text, rfl⟩ | ⟨rfl, limit, -, -, rfl⟩)
    · exact ⟨h, fun _ he => by cases he⟩
    · exact ⟨h, fun _ he => by cases he⟩

theorem onTop_advance {b : Bindings} {name : String} {m : MachineOn σ} (r : Bounds)
    (h : OnTop b name m) :
    Ends (advance name r) m (fun _ => OnTop b name)
      fun h m' => OnTop b name m' ∧ h.FoundValue := by
  obtain ⟨v, hv⟩ := h.find?
  refine (ends_advance r hv).imp ?_ ?_
  · rintro _ _ (⟨-, next, -, rfl⟩ | ⟨-, rfl, -⟩)
    · obtain ⟨w, hw⟩ := h
      exact ⟨.number next, by simp only [hw, Bindings.rebind_bind]⟩
    · exact h
  · rintro _ _ ⟨rfl, e, he, rfl⟩
    refine ⟨h, Halt.Plain.foundValue ⟨e, rfl, (Value.fromOperands_apply _ _ _).fromValues.plain _ he⟩⟩

/-- Rounds whose body is scoped change the top value of their variable and nothing else. -/
theorem onTop_rounds {b : Bindings} {name : String} {body : Exec σ Unit} (r : Bounds)
    (hbody : Scoped body) (more : Nat) {m : MachineOn σ} (h : OnTop b name m) :
    Ends (rounds name r body more) m (fun _ => OnTop b name)
      fun h m' => OnTop b name m' ∧ h.FoundValue := by
  induction more generalizing m with
  | zero => exact ⟨h, fun _ he => by cases he⟩
  | succ more ih =>
    refine (onTop_nextRound r h).bind fun next m₁ h₁ => ?_
    cases next with
    | none => exact h₁
    | some current =>
      have hkept {m₂ : MachineOn σ} (h₂ : m₂.bindings = m₁.bindings) : OnTop b name m₂ := by
        unfold OnTop; rw [h₂]; exact h₁
      have hrun : Ends body m₁ (fun _ => OnTop b name)
          fun h m' => OnTop b name m' ∧ h.FoundValue :=
        (hbody m₁).imp (fun _ _ h₂ => hkept h₂) fun _ _ h₂ => ⟨hkept h₂.1, h₂.2⟩
      refine hrun.bind fun _ m₂ h₂ => (onTop_advance r h₂).bind fun again m₃ h₃ => ?_
      cases again with
      | true => exact ih h₃
      | false => exact h₃

/-- The work leaves one value of the name on top of the bindings that it found under it. -/
def StaysOnTop (name : String) (body : Exec σ Unit) : Prop :=
  ∀ {b m}, OnTop b name m → Ends body m (fun _ => OnTop b name) fun _ => OnTop b name

theorem withBinding_eq {name : String} {body : Exec σ Unit} (h : StaysOnTop name body) (v : Value)
    (m : MachineOn σ) : withBinding name v body m =
      mapState (fun n => { n with bindings := m.bindings })
        (body { m with bindings := m.bindings.bind name v }) := by
  have hends := h (b := m.bindings) (m := { m with bindings := m.bindings.bind name v }) ⟨v, rfl⟩
  unfold withBinding
  cases hbody : body { m with bindings := m.bindings.bind name v } with
  | ok u n =>
    rw [Ends.of_ok hbody] at hends
    obtain ⟨w, hw⟩ := hends
    simp only [unbind, hw, Bindings.unbind_bind, mapState]
  | error e n =>
    rw [Ends.of_error hbody] at hends
    obtain ⟨w, hw⟩ := hends
    simp only [unbind, hw, Bindings.unbind_bind, mapState]

theorem staysOnTop_rounds {name : String} {body : Exec σ Unit} (r : Bounds) (hbody : Scoped body)
    (more : Nat) : StaysOnTop name (rounds name r body more) := fun htop =>
  (onTop_rounds r hbody more htop).imp (fun _ _ => id) fun _ _ => And.left

/-- A loop is its rounds with the variable bound to the start, and the bindings put back. -/
theorem loop_eq {limit : Nat} {head : LoopHead} {r : Bounds} {body : Exec σ Unit}
    {m : MachineOn σ} (hbody : Scoped body) (hr : bounds m.bindings head = .ok r) :
    loop limit head body m = mapState (fun n => { n with bindings := m.bindings })
      (rounds head.name r body limit
        { m with bindings := m.bindings.bind head.name (.number r.start) }) := by
  have hloop : loop limit head body m =
      (ofExcept (bounds m.bindings head) >>= fun r =>
        withBinding head.name (.number r.start) (rounds head.name r body limit)) m := rfl
  rw [hloop, hr]
  exact withBinding_eq (staysOnTop_rounds r hbody limit) _ m

theorem scoped_loop {limit : Nat} {head : LoopHead} {body : Exec σ Unit} (hbody : Scoped body) :
    Scoped (loop limit head body) := by
  intro m
  refine ends_loop ?_ fun r _ => ?_
  · intro e he
    refine ⟨rfl, fun name hname => ?_⟩
    cases hname
    rcases raises_bounds _ _ _ he with hzero | hplain
    · cases hzero
    · cases hplain
  · have htop : OnTop m.bindings head.name
        { m with bindings := m.bindings.bind head.name (.number r.start) } := ⟨_, rfl⟩
    exact (onTop_rounds r hbody limit htop).imp (fun _ _ h => ⟨h, rfl⟩)
      fun _ _ h => ⟨h.1, rfl, h.2⟩

theorem compatible_scoped [Writer σ] (limit : Nat) :
    Compatible limit limit fun (act _ : Exec σ Unit) => Scoped act where
  write s := (keeps_write s).imp Prod.fst fun _ => Halt.Plain.foundValue
  echo elements := (keeps_echo elements).imp Prod.fst fun _ => Halt.Plain.foundValue
  done := Keeps.pure _
  next ha hb := ha.bind fun _ => hb
  loop hbody := scoped_loop hbody

end Exec

/-- Visiting any node or any list of nodes, from any machine, leaves all bindings as they were,
whether it succeeds or fails and wherever it fails; and it never fails by an empty stack. -/
theorem bindings_restored [Writer σ] (limit : Nat) :
    (∀ n : Node, Keeps MachineOn.bindings Halt.FoundValue (n.run limit : Exec σ Unit)) ∧
      ∀ t : Template, Keeps MachineOn.bindings Halt.FoundValue (Template.run limit t : Exec σ Unit) :=
  ⟨(Exec.compatible_scoped limit).node, (Exec.compatible_scoped limit).template⟩

end TagTemplate
