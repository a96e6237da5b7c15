import TagTemplate.Fault

/-! How a computation with state ends. `Ends` speaks about both ways out of it, a result and an
error, so that what holds after a fault is proved along with what holds after success. `Keeps` is
the case of a part of the state that neither way out changes. -/

namespace TagTemplate

variable {ε σ α β γ : Type}

/-- The computation ends well in a state where `ok` holds of its result, or fails in one where
`failed` holds of the error. -/
def Ends (act : EStateM ε σ α) (s : σ) (ok : α → σ → Prop) (failed : ε → σ → Prop) : Prop :=
  match act s with
  | .ok a s' => ok a s'
  | .error e s' => failed e s'

namespace Ends

variable {s : σ} {ok ok' : α → σ → Prop} {failed failed' : ε → σ → Prop}

@[simp] theorem pure_iff {a : α} : Ends (pure a : EStateM ε σ α) s ok failed ↔ ok a s := Iff.rfl

@[simp] theorem throw_iff {e : ε} :
    Ends (throw e : EStateM ε σ α) s ok failed ↔ failed e s := Iff.rfl

@[simp] theorem get_iff {ok : σ → σ → Prop} :
    Ends (get : EStateM ε σ σ) s ok failed ↔ ok s s := Iff.rfl

@[simp] theorem set_iff {s' : σ} {ok : PUnit → σ → Prop} :
    Ends (set s' : EStateM ε σ PUnit) s ok failed ↔ ok ⟨⟩ s' := Iff.rfl

@[simp] theorem modify_iff {f : σ → σ} {ok : PUnit → σ → Prop} :
    Ends (modify f : EStateM ε σ PUnit) s ok failed ↔ ok ⟨⟩ (f s) := Iff.rfl

@[simp] theorem bind_iff {act : EStateM ε σ α} {next : α → EStateM ε σ β} {ok : β → σ → Prop} :
    Ends (act >>= next) s ok failed ↔ Ends act s (fun a s' => Ends (next a) s' ok failed) failed := by
  simp only [Ends, bind, EStateM.bind]
  cases act s <;> exact Iff.rfl

theorem imp {act : EStateM ε σ α} (h : Ends act s ok failed) (hok : ∀ a s', ok a s' → ok' a s')
    (hfailed : ∀ e s', failed e s' → failed' e s') : Ends act s ok' failed' := by
  unfold Ends at h ⊢
  cases hact : act s with
  | ok a s' => rw [hact] at h; exact hok a s' h
  | error e s' => rw [hact] at h; exact hfailed e s' h

theorem and {act : EStateM ε σ α} (h : Ends act s ok failed) (h' : Ends act s ok' failed') :
    Ends act s (fun a s' => ok a s' ∧ ok' a s') fun e s' => failed e s' ∧ failed' e s' := by
  unfold Ends at h h' ⊢
  cases hact : act s with
  | ok a s' => rw [hact] at h h'; exact ⟨h, h'⟩
  | error e s' => rw [hact] at h h'; exact ⟨h, h'⟩

theorem bind {act : EStateM ε σ α} {next : α → EStateM ε σ β} {ok' : β → σ → Prop}
    (h : Ends act s ok failed) (hnext : ∀ a s', ok a s' → Ends (next a) s' ok' failed) :
    Ends (act >>= next) s ok' failed :=
  bind_iff.2 (h.imp hnext fun _ _ => id)

theorem of_ok {act : EStateM ε σ α} {a : α} {s' : σ} (h : act s = .ok a s') :
    Ends act s ok failed ↔ ok a s' := by
  unfold Ends; rw [h]

theorem of_error {act : EStateM ε σ α} {e : ε} {s' : σ} (h : act s = .error e s') :
    Ends act s ok failed ↔ failed e s' := by
  unfold Ends; rw [h]

end Ends

/-- Behind a computation that ends well the next one runs. -/
theorem bind_of_ok {act : EStateM ε σ α} {next : α → EStateM ε σ β} {a : α} {s s' : σ}
    (h : act s = .ok a s') : (act >>= next) s = next a s' := by
  simp only [bind, EStateM.bind, h]

theorem bind_of_error {act : EStateM ε σ α} {next : α → EStateM ε σ β} {e : ε} {s s' : σ}
    (h : act s = .error e s') : (act >>= next) s = .error e s' := by
  simp only [bind, EStateM.bind, h]

theorem ok_of_bind {act : EStateM ε σ α} {next : α → EStateM ε σ β} {b : β} {s s'' : σ}
    (h : (act >>= next) s = .ok b s'') : ∃ a s', act s = .ok a s' ∧ next a s' = .ok b s'' := by
  cases hact : act s with
  | ok a s' => exact ⟨a, s', rfl, (bind_of_ok hact).symm.trans h⟩
  | error e s' => rw [bind_of_error hact] at h; cases h

/-- The state in which a computation has ended. -/
def finalState : EStateM.Result ε σ α → σ
  | .ok _ s => s
  | .error _ s => s

def mapState (f : σ → τ) : EStateM.Result ε σ α → EStateM.Result ε τ α
  | .ok a s => .ok a (f s)
  | .error e s => .error e (f s)

theorem finalState_mapState (f : σ → τ) (r : EStateM.Result ε σ α) :
    finalState (mapState f r) = f (finalState r) := by
  cases r <;> rfl

theorem ends_iff_finalState {p : σ → Prop} {act : EStateM ε σ α} {s : σ} :
    Ends act s (fun _ => p) (fun _ => p) ↔ p (finalState (act s)) := by
  unfold Ends
  cases act s <;> exact Iff.rfl

/-- The computation fails, and with this error. -/
def FailsWith (e : ε) (act : EStateM ε σ α) (s : σ) : Prop := ∃ s', act s = .error e s'

namespace FailsWith

variable {e e' : ε} {s : σ}

@[simp] theorem pure_iff {a : α} : FailsWith e (pure a : EStateM ε σ α) s ↔ False :=
  iff_false_intro fun ⟨_, h⟩ => nomatch h

@[simp] theorem throw_iff : FailsWith e (throw e' : EStateM ε σ α) s ↔ e' = e := by
  constructor
  · intro h
    obtain ⟨s', hs⟩ := h
    cases hs
    rfl
  · intro h
    exact ⟨s, by rw [h]; rfl⟩

theorem bind_iff {act : EStateM ε σ α} {next : α → EStateM ε σ β} :
    FailsWith e (act >>= next) s ↔
      FailsWith e act s ∨ ∃ a s', act s = .ok a s' ∧ FailsWith e (next a) s' := by
  unfold FailsWith
  simp only [bind, EStateM.bind]
  cases act s with
  | ok a s' =>
    constructor
    · exact fun h => .inr ⟨a, s', rfl, h⟩
    · intro h
      rcases h with ⟨_, ⟨⟩⟩ | ⟨_, _, ⟨⟩, h⟩
      exact h
  | error e s' => simp

@[simp] theorem throw_bind {next : α → EStateM ε σ β} :
    FailsWith e ((throw e' : EStateM ε σ α) >>= next) s ↔ e' = e := throw_iff

theorem get_bind {next : σ → EStateM ε σ α} :
    FailsWith e (get >>= next) s ↔ FailsWith e (next s) s := Iff.rfl

theorem bind_left {act : EStateM ε σ α} {next : α → EStateM ε σ β} (h : FailsWith e act s) :
    FailsWith e (act >>= next) s := bind_iff.2 (.inl h)

theorem bind_right {act : EStateM ε σ α} {next : α → EStateM ε σ β} {a : α} {s' : σ}
    (hact : act s = .ok a s') (h : FailsWith e (next a) s') : FailsWith e (act >>= next) s :=
  bind_iff.2 (.inr ⟨a, s', hact, h⟩)

end FailsWith

/-- What the error of a computation that ends so must be. -/
theorem Ends.of_failsWith {act : EStateM ε σ α} {s : σ} {ok : α → σ → Prop}
    {failed : ε → σ → Prop} {e : ε} (h : Ends act s ok failed) (he : FailsWith e act s) :
    ∃ s', failed e s' := by
  obtain ⟨s', hs⟩ := he
  exact ⟨s', (Ends.of_error hs).1 h⟩

/-- However the computation ends, the view of the state is the one from before, and an error is one
of those that it may raise. -/
def Keeps (view : σ → γ) (raises : ε → Prop) (act : EStateM ε σ α) : Prop :=
  ∀ s, Ends act s (fun _ s' => view s' = view s) fun e s' => view s' = view s ∧ raises e

namespace Keeps

variable {view : σ → γ} {raises raises' : ε → Prop}

theorem pure (a : α) : Keeps view raises (Pure.pure a : EStateM ε σ α) := fun _ => rfl

theorem throw {e : ε} (he : raises e) : Keeps view raises (throw e : EStateM ε σ α) :=
  fun _ => ⟨rfl, he⟩

theorem get : Keeps view raises (get : EStateM ε σ σ) := fun _ => rfl

theorem modify {f : σ → σ} (h : ∀ s, view (f s) = view s) :
    Keeps view raises (modify f : EStateM ε σ PUnit) := h

theorem bind {act : EStateM ε σ α} {next : α → EStateM ε σ β} (h : Keeps view raises act)
    (hnext : ∀ a, Keeps view raises (next a)) : Keeps view raises (act >>= next) := by
  intro s
  refine Ends.bind_iff.2 ((h s).imp ?_ fun _ _ => id)
  intro a s' hs
  refine (hnext a s').imp ?_ ?_
  · intro _ _ ht; exact ht.trans hs
  · intro _ _ ht; exact ⟨ht.1.trans hs, ht.2⟩

theorem imp {δ : Type} {act : EStateM ε σ α} (h : Keeps view raises act) (f : γ → δ)
    (hraises : ∀ e, raises e → raises' e) : Keeps (fun s => f (view s)) raises' act := by
  intro s
  refine (h s).imp ?_ ?_
  · intro _ _ hs; exact congrArg f hs
  · intro e _ hs; exact ⟨congrArg f hs.1, hraises e hs.2⟩

theorem forM {f : α → EStateM ε σ PUnit} (h : ∀ a, Keeps view raises (f a)) (as : List α) :
    Keeps view raises (as.forM f) := by
  induction as with
  | nil => exact pure _
  | cons a as ih => exact bind (h a) fun _ => ih

theorem foldlM {f : β → α → EStateM ε σ β} (h : ∀ b a, Keeps view raises (f b a)) (as : List α)
    (b : β) : Keeps view raises (as.foldlM f b) := by
  induction as generalizing b with
  | nil => exact pure _
  | cons a as ih =>
    rw [List.foldlM_cons]
    exact bind (h b a) ih

end Keeps

end TagTemplate
