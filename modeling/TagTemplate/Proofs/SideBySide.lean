import Mathlib.Data.List.Forall2
import TagTemplate.Proofs.Ends

/-! Two computations with state, side by side. A pairing says when two states stand for each other
and which errors do; and since one computation may stop where the other one goes on, it says how
far that one may have come by then. The rules follow the way a computation is put together. -/

namespace TagTemplate

variable {ε σ τ α β : Type}

/-- However the computation ends, what held of the state before holds of the state after. -/
def Preserves (p : σ → Prop) (act : EStateM ε σ α) : Prop :=
  ∀ s, p s → Ends act s (fun _ => p) fun _ => p

namespace Preserves

variable {p : σ → Prop}

theorem pure (a : α) : Preserves p (Pure.pure a : EStateM ε σ α) := fun _ h => h

theorem throw (e : ε) : Preserves p (throw e : EStateM ε σ α) := fun _ h => h

theorem get : Preserves p (get : EStateM ε σ σ) := fun _ h => h

theorem bind {act : EStateM ε σ α} {next : α → EStateM ε σ β} (h : Preserves p act)
    (hnext : ∀ a, Preserves p (next a)) : Preserves p (act >>= next) :=
  fun s hs => (h s hs).bind fun a s' => hnext a s'

theorem never {act : EStateM ε σ α} : Preserves (fun _ => False) act := fun _ h => h.elim

end Preserves

theorem Preserves.finalState {p : σ → Prop} {act : EStateM ε σ α} (h : Preserves p act) {s : σ}
    (hs : p s) : p (finalState (act s)) :=
  ends_iff_finalState.1 (h s hs)

theorem Keeps.finalState {γ : Type} {view : σ → γ} {raises : ε → Prop} {act : EStateM ε σ α}
    (h : Keeps view raises act) (s : σ) : view (finalState (act s)) = view s := by
  have hkeeps : Preserves (view · = view s) act := fun s' hs =>
    (h s').imp (fun _ _ hs' => hs'.trans hs) fun _ _ hs' => hs'.1.trans hs
  exact hkeeps.finalState rfl

structure Pairing (ε σ τ : Type) where
  /-- The two states stand for each other. -/
  same : σ → τ → Prop
  alike : ε → ε → Prop
  /-- The first state is past the point where the second computation has stopped. -/
  ahead : σ → ε → τ → Prop

namespace Pairing

variable {P Q : Pairing ε σ τ}

/-- Both computations have ended the same way, or the second one has stopped early. -/
inductive Results (P : Pairing ε σ τ) : EStateM.Result ε σ α → EStateM.Result ε τ α → Prop
  | ok {a : α} {s : σ} {t : τ} : P.same s t → Results P (.ok a s) (.ok a t)
  | error {e e' : ε} {s : σ} {t : τ} : P.alike e e' → P.same s t →
      Results P (.error e s) (.error e' t)
  | stopped {r : EStateM.Result ε σ α} {e : ε} {t : τ} : P.ahead (finalState r) e t →
      Results P r (.error e t)

/-- From states that stand for each other the computations end the same way, and where the second
one has stopped before, the first one does not come back behind that point. -/
structure Runs (P : Pairing ε σ τ) (act : EStateM ε σ α) (act' : EStateM ε τ α) : Prop where
  together : ∀ s t, P.same s t → P.Results (act s) (act' t)
  onward : ∀ e t, Preserves (P.ahead · e t) act

/-- A pairing with something more that two states have to share. -/
def and (P : Pairing ε σ τ) (R : σ → τ → Prop) : Pairing ε σ τ :=
  { P with same := fun s t => P.same s t ∧ R s t }

theorem Results.and {R : σ → τ → Prop} {r : EStateM.Result ε σ α} {r' : EStateM.Result ε τ α}
    (h : P.Results r r') (hR : R (finalState r) (finalState r')) : (P.and R).Results r r' := by
  cases h with
  | ok hsame => exact .ok ⟨hsame, hR⟩
  | error halike hsame => exact .error halike ⟨hsame, hR⟩
  | stopped hahead => exact .stopped hahead

/-- Where the second computation cannot stop early, both have ended the same way. -/
theorem Results.ended {r : EStateM.Result ε σ α} {r' : EStateM.Result ε τ α} (h : P.Results r r')
    (hnever : ∀ s e t, ¬P.ahead s e t) :
    (∃ a s t, r = .ok a s ∧ r' = .ok a t ∧ P.same s t) ∨
      ∃ e e' s t, r = .error e s ∧ r' = .error e' t ∧ P.alike e e' ∧ P.same s t := by
  cases h with
  | ok hsame => exact .inl ⟨_, _, _, rfl, rfl, hsame⟩
  | error halike hsame => exact .inr ⟨_, _, _, _, rfl, rfl, halike, hsame⟩
  | stopped hahead => exact absurd hahead (hnever _ _ _)

theorem Results.imp {same : σ → τ → Prop} {r : EStateM.Result ε σ α} {r' : EStateM.Result ε τ α}
    (h : P.Results r r') (hsame : ∀ s t, P.same s t → same s t) :
    ({ P with same } : Pairing ε σ τ).Results r r' := by
  cases h with
  | ok hst => exact .ok (hsame _ _ hst)
  | error he hst => exact .error he (hsame _ _ hst)
  | stopped ha => exact .stopped ha

theorem Results.mapState {r : EStateM.Result ε σ α} {r' : EStateM.Result ε τ α} {f : σ → σ}
    {f' : τ → τ} (h : P.Results r r') (hsame : ∀ s t, P.same s t → Q.same (f s) (f' t))
    (halike : ∀ e e', P.alike e e' → Q.alike e e')
    (hahead : ∀ s e t, P.ahead s e t → Q.ahead (f s) e (f' t)) :
    Q.Results (mapState f r) (mapState f' r') := by
  cases h with
  | ok hst => exact .ok (hsame _ _ hst)
  | error he hst => exact .error (halike _ _ he) (hsame _ _ hst)
  | stopped ha =>
    refine .stopped ?_
    rw [finalState_mapState]
    exact hahead _ _ _ ha

namespace Runs

theorem pure (a : α) : P.Runs (Pure.pure a : EStateM ε σ α) (Pure.pure a) :=
  ⟨fun _ _ h => .ok h, fun _ _ => .pure a⟩

theorem throw {e e' : ε} (h : P.alike e e') :
    P.Runs (throw e : EStateM ε σ α) (throw e') :=
  ⟨fun _ _ hst => .error h hst, fun _ _ => .throw e⟩

theorem bind {act : EStateM ε σ α} {act' : EStateM ε τ α} {next : α → EStateM ε σ β}
    {next' : α → EStateM ε τ β} (h : P.Runs act act') (hnext : ∀ a, P.Runs (next a) (next' a)) :
    P.Runs (act >>= next) (act' >>= next') := by
  constructor
  · intro s t hst
    have hpair := h.together s t hst
    simp only [Bind.bind, EStateM.bind]
    cases hact : act s with
    | ok a s' =>
      rw [hact] at hpair
      cases hact' : act' t with
      | ok a' t' =>
        rw [hact'] at hpair
        cases hpair with
        | ok hsame => exact (hnext a).together s' t' hsame
      | error e t' =>
        rw [hact'] at hpair
        cases hpair with
        | stopped hahead => exact .stopped (((hnext a).onward e t').finalState hahead)
    | error e s' =>
      rw [hact] at hpair
      cases hact' : act' t with
      | ok a' t' => rw [hact'] at hpair; cases hpair
      | error e' t' =>
        rw [hact'] at hpair
        cases hpair with
        | error halike hsame => exact .error halike hsame
        | stopped hahead => exact .stopped hahead
  · exact fun e t => (h.onward e t).bind fun a => (hnext a).onward e t

/-- What each of the two goes on with may depend on its own state. -/
theorem get {next : σ → EStateM ε σ α} {next' : τ → EStateM ε τ α}
    (h : ∀ s t, P.same s t → P.Results (next s s) (next' t t))
    (honward : ∀ e t s, Preserves (P.ahead · e t) (next s)) :
    P.Runs (get >>= next) (get >>= next') :=
  ⟨h, fun e t => Preserves.get.bind (honward e t)⟩

theorem modify {f : σ → σ} {f' : τ → τ} (h : ∀ s t, P.same s t → P.same (f s) (f' t))
    (honward : ∀ e t s, P.ahead s e t → P.ahead (f s) e t) :
    P.Runs (modify f : EStateM ε σ PUnit) (modify f') :=
  ⟨fun s t hst => .ok (h s t hst), honward⟩

theorem forM {f : α → EStateM ε σ PUnit} {f' : α → EStateM ε τ PUnit}
    (h : ∀ a, P.Runs (f a) (f' a)) (as : List α) : P.Runs (as.forM f) (as.forM f') := by
  induction as with
  | nil => exact pure _
  | cons a as ih => exact bind (h a) fun _ => ih

theorem foldlM {R : α → α → Prop} {f : β → α → EStateM ε σ β} {f' : β → α → EStateM ε τ β}
    (h : ∀ b a a', R a a' → P.Runs (f b a) (f' b a')) {as as' : List α}
    (has : List.Forall₂ R as as') (b : β) : P.Runs (as.foldlM f b) (as'.foldlM f' b) := by
  induction has generalizing b with
  | nil => exact pure b
  | cons ha _ ih =>
    rw [List.foldlM_cons, List.foldlM_cons]
    exact bind (h b _ _ ha) ih

end Runs

end Pairing

end TagTemplate
