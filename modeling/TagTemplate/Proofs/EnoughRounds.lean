import TagTemplate.Proofs.Scoping

/-! The bound on the rounds of a single loop does not show in a run that gets by with it: allowed
more rounds, the run does exactly the same. So a run that does not give up at some bound is the
run without any, and to end is not to give up at some bound. -/

namespace TagTemplate

variable {σ : Type} {α β : Type}

theorem Halt.fault_ne_outOfRounds (e : Fault) : Halt.fault e ≠ .outOfRounds := by
  intro h
  cases h

namespace Exec

/-- Where the first computation does not give up, the second one does the same. -/
def Refines (act act' : Exec σ α) : Prop :=
  ∀ m, (∃ m', act m = .error .outOfRounds m') ∨ act' m = act m

namespace Refines

theorem refl (act : Exec σ α) : Refines act act := fun _ => .inr rfl

theorem bind {act act' : Exec σ α} {next next' : α → Exec σ β} (h : Refines act act')
    (hnext : ∀ a, Refines (next a) (next' a)) : Refines (act >>= next) (act' >>= next') := by
  intro m
  rcases h m with ⟨m', hm⟩ | heq
  · exact .inl ⟨m', by simp only [Bind.bind, EStateM.bind, hm]⟩
  · cases hact : act m with
    | error h m' => exact .inr (by simp only [Bind.bind, EStateM.bind, heq, hact])
    | ok a m' =>
      simp only [Bind.bind, EStateM.bind, heq, hact]
      exact hnext a m'

end Refines

theorem refines_rounds {body body' : Exec σ Unit} (name : String) (r : Bounds)
    (hbody : Refines body body') {more more' : Nat} (hmore : more ≤ more') :
    Refines (rounds name r body more) (rounds name r body' more') := by
  induction more generalizing more' with
  | zero => exact fun m => .inl ⟨m, rfl⟩
  | succ more ih =>
    obtain ⟨more', rfl⟩ : ∃ k, more' = k + 1 := ⟨more' - 1, by omega⟩
    refine (Refines.refl _).bind fun next => ?_
    cases next with
    | none => exact Refines.refl _
    | some _ =>
      refine hbody.bind fun _ => (Refines.refl _).bind fun again => ?_
      cases again with
      | true => exact ih (by omega)
      | false => exact Refines.refl _

/-- The binding is removed even when the rounds give up, so giving up passes through. -/
theorem refines_withBinding {body body' : Exec σ Unit} (name : String) (v : Value)
    (hbody : Refines body body') (htop : StaysOnTop name body) :
    Refines (withBinding name v body) (withBinding name v body') := by
  intro m
  rcases hbody { m with bindings := m.bindings.bind name v } with ⟨m', hm⟩ | heq
  · exact .inl ⟨{ m' with bindings := m.bindings }, by rw [withBinding_eq htop, hm]; rfl⟩
  · exact .inr (by simp only [withBinding, heq])

theorem compatible_refines [Writer σ] {limit limit' : Nat} (hlimit : limit ≤ limit') :
    Compatible limit limit' fun (act act' : Exec σ Unit) => Scoped act ∧ Refines act act' where
  write s := ⟨(compatible_scoped limit).write s, Refines.refl _⟩
  echo elements := ⟨(compatible_scoped limit).echo elements, Refines.refl _⟩
  done := ⟨(compatible_scoped limit).done, Refines.refl _⟩
  next ha hb := ⟨ha.1.bind fun _ => hb.1, ha.2.bind fun _ => hb.2⟩
  loop hbody := ⟨scoped_loop hbody.1, (Refines.refl _).bind fun _ => (Refines.refl _).bind fun r =>
    refines_withBinding _ _ (refines_rounds _ r hbody.2 hlimit) (staysOnTop_rounds r hbody.1 limit)⟩

end Exec

/-- Neither a result nor a fault changes when a run is allowed more rounds. -/
theorem Template.run_of_le [Writer σ] {limit limit' : Nat} {t : Template} {m : MachineOn σ}
    (hlimit : limit ≤ limit') (hends : ∀ m', Template.run limit t m ≠ .error .outOfRounds m') :
    Template.run limit' t m = Template.run limit t m := by
  rcases ((Exec.compatible_refines hlimit).template t).2 m with ⟨m', hm⟩ | heq
  · exact absurd hm (hends m')
  · exact heq

end TagTemplate
