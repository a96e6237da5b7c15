import TagTemplate.Proofs.History
import TagTemplate.Proofs.Matching
import TagTemplate.Proofs.SideBySide

/-! Two runs, step by step. A comparison says when two machines stand for each other, whatever is
bound in them. Templates that match under the bindings of their machines then run alike, which is
one induction for all comparisons. -/

namespace TagTemplate

variable {σ τ α : Type}

/-! ## Contexts -/

/-- A relation of contexts that some functions cannot tell apart: what they read is the same in
both, and what they write keeps the contexts related. -/
structure Context.Hidden (calls : Builtin → Prop) (R : Context → Context → Prop) : Prop where
  parameters : ∀ {c d}, calls .paramGet → R c d →
    ∀ name : String, d.parameters[name]? = c.parameters[name]?
  persistent : ∀ {c d}, calls .pparamGet → R c d →
    ∀ name : String, d.persistent[name]? = c.persistent[name]?
  temporary : ∀ {c d}, calls .tparamGet → R c d →
    ∀ name : String, d.temporary[name]? = c.temporary[name]?
  setMimeType : ∀ {c d}, calls .setMimeType → R c d →
    ∀ s, R (c.setMimeType s) (d.setMimeType s)
  setPersistent : ∀ {c d}, calls .pparamSet → R c d →
    ∀ name s, R (c.setPersistent name s) (d.setPersistent name s)
  setTemporary : ∀ {c d}, calls .tparamSet → R c d →
    ∀ name s, R (c.setTemporary name s) (d.setTemporary name s)
  removePersistent : ∀ {c d}, calls .pparamDel → R c d →
    ∀ name, R (c.removePersistent name) (d.removePersistent name)
  removeTemporary : ∀ {c d}, calls .tparamDel → R c d →
    ∀ name, R (c.removeTemporary name) (d.removeTemporary name)

theorem Context.hidden_eq : Context.Hidden (fun _ => True) fun c d => d = c where
  parameters _ h _ := by rw [h]
  persistent _ h _ := by rw [h]
  temporary _ h _ := by rw [h]
  setMimeType _ h _ := by rw [h]
  setPersistent _ h _ _ := by rw [h]
  setTemporary _ h _ _ := by rw [h]
  removePersistent _ h _ := by rw [h]
  removeTemporary _ h _ := by rw [h]

namespace Builtin

open MonadExcept (ofExcept)

/-- Work on two contexts that ends the same way in both, with the same fault if it fails. -/
def onContexts (R : Context → Context → Prop) : Pairing Fault Context Context :=
  ⟨R, Eq, fun _ _ _ => False⟩

variable {calls : Builtin → Prop} {R : Context → Context → Prop}

theorem runs_ofExcept (x : Except Fault α) :
    (onContexts R).Runs (ofExcept x : Action α) (ofExcept x) := by
  cases x with
  | ok a => exact .pure a
  | error e => exact .throw rfl

theorem runs_get {f f' : Context → α} (h : ∀ c d, R c d → f' d = f c) :
    (onContexts R).Runs (do return f (← get) : Action α) (do return f' (← get)) := by
  refine .get (fun c d hcd => ?_) fun _ _ _ => Preserves.pure _
  rw [h c d hcd]
  exact .ok hcd

theorem runs_modify {f : Context → Context} (h : ∀ c d, R c d → R (f c) (f d)) :
    (onContexts R).Runs (do modify f; return ([] : List Value) : Action _)
      (do modify f; return []) := by
  have hmodify : (onContexts R).Runs (modify f : Action PUnit) (modify f) :=
    .modify h fun _ _ _ => id
  exact hmodify.bind fun _ => .pure _

def Behaviour.RunsOn (R : Context → Context → Prop) : Behaviour → Prop
  | .unary act => ∀ x, (onContexts R).Runs (act x) (act x)
  | .binary act => ∀ x y, (onContexts R).Runs (act x y) (act x y)

theorem runs_behaviour (hR : Context.Hidden calls R) {f : Builtin} (hf : calls f) :
    f.behaviour.RunsOn R := by
  cases f with
  | sin => exact fun x => (runs_ofExcept _).bind fun _ => .pure _
  | decfmt => exact fun x y => (runs_ofExcept _).bind fun _ => .pure _
  | dup => exact fun _ => .pure _
  | swap => exact fun _ _ => .pure _
  | setMimeType => exact fun _ => runs_modify fun _ _ h => hR.setMimeType hf h _
  | paramGet => exact fun _ _ => runs_get fun _ _ h => by rw [hR.parameters hf h]
  | pparamGet => exact fun _ _ => runs_get fun _ _ h => by rw [hR.persistent hf h]
  | tparamGet => exact fun _ _ => runs_get fun _ _ h => by rw [hR.temporary hf h]
  | pparamSet => exact fun _ _ => runs_modify fun _ _ h => hR.setPersistent hf h _ _
  | tparamSet => exact fun _ _ => runs_modify fun _ _ h => hR.setTemporary hf h _ _
  | pparamDel => exact fun _ => runs_modify fun _ _ h => hR.removePersistent hf h _
  | tparamDel => exact fun _ => runs_modify fun _ _ h => hR.removeTemporary hf h _

theorem runs_call (hR : Context.Hidden calls R) {f : Builtin} (hf : calls f)
    (stack : List Value) : (onContexts R).Runs (f.call stack) (f.call stack) := by
  have h := runs_behaviour hR hf
  unfold call
  split
  · rename_i act x rest hact
    rw [hact] at h
    exact (h x).bind fun _ => .pure _
  · rename_i act y x rest hact
    rw [hact] at h
    exact (h x y).bind fun _ => .pure _
  · exact .throw rfl

end Builtin

/-! ## Elements -/

namespace Element

variable {calls : Builtin → Prop} {R : Context → Context → Prop} {b b' : Bindings}
  {e e' : Element}

theorem runs_eval (hR : Context.Hidden calls R) (h : e.Matches b b' e')
    (hcalls : ∀ f ∈ e.builtins, calls f) (stack : List Value) :
    (Builtin.onContexts R).Runs (e.eval b stack) (e'.eval b' stack) := by
  cases h with
  | var hlookup =>
    simp only [eval, hlookup]
    exact (Builtin.runs_ofExcept _).bind fun _ => .pure _
  | constant hne =>
    cases e with
    | var name => exact absurd rfl (hne name)
    | integer n => exact .pure _
    | double x => exact .pure _
    | string s => exact .pure _
    | operator symbol => exact Builtin.runs_ofExcept _
    | function name =>
      simp only [eval]
      split
      · rename_i f hf
        exact Builtin.runs_call hR (hcalls f (by simp [builtins, hf])) stack
      · exact .throw rfl

theorem runs_evalAll (hR : Context.Hidden calls R) {es es' : List Element}
    (h : List.Forall₂ (Matches b b') es es')
    (hcalls : ∀ f ∈ es.flatMap Element.builtins, calls f) (stack : List Value) :
    (Builtin.onContexts R).Runs (evalAll b es stack) (evalAll b' es' stack) := by
  have heach : ∀ e ∈ es, ∀ f ∈ e.builtins, calls f := fun e he f hf =>
    hcalls f (List.mem_flatMap.2 ⟨e, he, hf⟩)
  refine .foldlM ?_ ((List.forall₂_and_left _ _).2 ⟨heach, h⟩) stack
  exact fun stack _ _ he => runs_eval hR he.2 he.1 stack

end Element

/-! ## Single steps -/

namespace Exec

theorem ofExcept_bind {β : Type} (x : Except Fault α) (f : α → Except Fault β) :
    (ofExcept (x >>= f) : Exec σ β) = ofExcept x >>= fun a => ofExcept (f a) := by
  cases x <;> rfl

theorem preserves_ofExcept {p : MachineOn σ → Prop} (x : Except Fault α) :
    Preserves p (ofExcept x : Exec σ α) := by
  cases x with
  | ok a => exact .pure a
  | error e => exact .throw _

theorem countIteration_eq (m : MachineOn σ) :
    countIteration m = (match m.context.maxLoopIterations with
      | some limit =>
        if limit < m.iterations + 1 then throw (.fault (.iterationLimit limit)) else pure ()
      | none => pure () : Exec σ Unit) (counted m) := rfl

theorem countIteration_unlimited {m : MachineOn σ} (h : m.context.maxLoopIterations = none) :
    countIteration m = .ok () (counted m) := by
  rw [countIteration_eq, h]
  rfl

theorem countIteration_limited {m : MachineOn σ} {limit : Nat}
    (h : m.context.maxLoopIterations = some limit) :
    countIteration m =
      if limit ≤ m.iterations then .error (.fault (.iterationLimit limit)) (counted m)
      else .ok () (counted m) := by
  rw [countIteration_eq, h]
  by_cases hle : limit ≤ m.iterations
  · rw [if_pos hle]
    dsimp only
    rw [if_pos (Nat.lt_succ_of_le hle)]
    rfl
  · rw [if_neg hle]
    dsimp only
    rw [if_neg (by omega)]
    rfl

/-- Machines that agree on the count and the limit count alike. -/
theorem runs_count {P : Pairing Halt (MachineOn σ) (MachineOn τ)}
    (hcounted : ∀ {m n}, P.same m n → P.same (counted m) (counted n))
    (hiterations : ∀ {m n}, P.same m n → n.iterations = m.iterations)
    (hlimit : ∀ {m n}, P.same m n → n.context.maxLoopIterations = m.context.maxLoopIterations)
    (hrefl : ∀ h, P.alike h h) (hahead : ∀ {m h n}, P.ahead m h n → P.ahead (counted m) h n) :
    P.Runs countIteration countIteration := by
  constructor
  · intro m n h
    cases hm : m.context.maxLoopIterations with
    | none =>
      rw [countIteration_unlimited hm, countIteration_unlimited ((hlimit h).trans hm)]
      exact .ok (hcounted h)
    | some limit =>
      rw [countIteration_limited hm, countIteration_limited ((hlimit h).trans hm), hiterations h]
      by_cases hle : limit ≤ m.iterations
      · rw [if_pos hle, if_pos hle]
        exact .error (hrefl _) (hcounted h)
      · rw [if_neg hle, if_neg hle]
        exact .ok (hcounted h)
  · intro e n m h
    refine (ends_countIteration m).imp ?_ ?_
    · intro _ _ hends
      rw [hends.1]
      exact hahead h
    · intro _ _ hends
      rw [hends.1]
      exact hahead h

theorem peek_of_find? {m : MachineOn σ} {name : String} {v : Value}
    (hv : m.bindings.find? name = some v) : peek name m = .ok v m := by
  have hpeek : ofExcept (m.bindings.peek name) m = .ok v m := by
    rw [Bindings.peek, hv]
    rfl
  exact hpeek

end Exec

/-! ## Machines -/

/-- A way to compare two machines while they run. It does not look at what is bound in them, and
it is respected by the steps of a run: output, work on the context, and the count of iterations. -/
structure Comparison (σ τ : Type) [Writer σ] [Writer τ] extends
    Pairing Halt (MachineOn σ) (MachineOn τ) where
  contexts : Context → Context → Prop
  /-- The functions that the templates may call. -/
  calls : Builtin → Prop
  hidden : Context.Hidden calls contexts
  same_contexts : ∀ {m n}, same m n → contexts m.context n.context
  same_with : ∀ {m n}, same m n → ∀ {c d}, contexts c d → ∀ b b',
    same { m with context := c, bindings := b } { n with context := d, bindings := b' }
  ahead_with : ∀ {m h n}, ahead m h n → ∀ c b b',
    ahead { m with context := c, bindings := b } h { n with bindings := b' }
  alike_refl : ∀ h, alike h h
  write : ∀ s, toPairing.Runs (Exec.write s) (Exec.write s)
  count : toPairing.Runs Exec.countIteration Exec.countIteration

namespace Comparison

variable [Writer σ] [Writer τ] (C : Comparison σ τ)

theorem same_bindings {m : MachineOn σ} {n : MachineOn τ} (h : C.same m n) (b b' : Bindings) :
    C.same { m with bindings := b } { n with bindings := b' } :=
  C.same_with h (C.same_contexts h) b b'

theorem ahead_bindings {m : MachineOn σ} {h : Halt} {n : MachineOn τ} (ha : C.ahead m h n)
    (b b' : Bindings) : C.ahead { m with bindings := b } h { n with bindings := b' } :=
  C.ahead_with ha m.context b b'

/-- The comparison of machines with related bindings. -/
def under (B : Bindings → Bindings → Prop) : Pairing Halt (MachineOn σ) (MachineOn τ) :=
  C.toPairing.and fun m n => B m.bindings n.bindings

/-- The comparison of machines with just these bindings. -/
abbrev fixed (b b' : Bindings) : Pairing Halt (MachineOn σ) (MachineOn τ) :=
  C.under fun x x' => x = b ∧ x' = b'

end Comparison

namespace Exec

variable [Writer σ] [Writer τ] {C : Comparison σ τ} {B : Bindings → Bindings → Prop}

/-! ## Steps -/

theorem runs_framed {act : Exec σ α} {act' : Exec τ α} {raises raises' : Halt → Prop}
    (h : C.toPairing.Runs act act') (hkeeps : Keeps MachineOn.bindings raises act)
    (hkeeps' : Keeps MachineOn.bindings raises' act') : (C.under B).Runs act act' := by
  refine ⟨fun m n hmn => (h.together m n hmn.1).and ?_, h.onward⟩
  rw [hkeeps.finalState, hkeeps'.finalState]
  exact hmn.2

theorem runs_ofExcept (x : Except Fault α) :
    (C.under B).Runs (ofExcept x : Exec σ α) (ofExcept x) := by
  cases x with
  | ok a => exact .pure a
  | error e => exact .throw (C.alike_refl _)

theorem runs_onContext {act act' : Builtin.Action α}
    (h : (Builtin.onContexts C.contexts).Runs act act') :
    C.toPairing.Runs (onContext act : Exec σ α) (onContext act') := by
  constructor
  · intro m n hmn
    have hpair := h.together _ _ (C.same_contexts hmn)
    unfold onContext
    cases hact : act m.context <;> cases hact' : act' n.context <;> rw [hact, hact'] at hpair
    · cases hpair with
      | ok hcd => exact .ok (C.same_with hmn hcd _ _)
    · cases hpair with
      | stopped hahead => exact hahead.elim
    · cases hpair
    · cases hpair with
      | error heq hcd => subst heq; exact .error (C.alike_refl _) (C.same_with hmn hcd _ _)
      | stopped hahead => exact hahead.elim
  · intro e n m hahead
    unfold Ends onContext
    cases act m.context <;> exact C.ahead_with hahead _ _ n.bindings

theorem runs_write (s : String) : (C.under B).Runs (write s) (write s) :=
  runs_framed (C.write s) ((keeps_write s).imp Prod.fst fun _ => id)
    ((keeps_write s).imp Prod.fst fun _ => id)

theorem runs_writeValue (v : Value) : (C.under B).Runs (writeValue v) (writeValue v) := by
  cases v with
  | absent => exact .pure _
  | number n => exact runs_write _
  | text s => exact runs_write _

theorem runs_countIteration : (C.under B).Runs countIteration countIteration := by
  have hkeeps (ρ : Type) :
      Keeps MachineOn.bindings (fun _ => True) (countIteration : Exec ρ Unit) := by
    intro m
    refine (ends_countIteration m).imp ?_ ?_
    · intro _ _ h
      obtain ⟨rfl, -⟩ := h
      rfl
    · intro _ _ h
      obtain ⟨rfl, -⟩ := h
      exact ⟨rfl, trivial⟩
  exact runs_framed C.count (hkeeps σ) (hkeeps τ)

theorem runs_echo {b b' : Bindings} {es es' : List Element}
    (h : List.Forall₂ (Element.Matches b b') es es')
    (hcalls : ∀ f ∈ es.flatMap Element.builtins, C.calls f) :
    (C.fixed b b').Runs (echo es) (echo es') := by
  have hkeeps (ρ : Type) (x : Bindings) (es : List Element) :
      Keeps MachineOn.bindings Halt.Plain (onContext (Element.evalAll x es []) : Exec ρ _) :=
    (keeps_onContext (Element.tame_evalAll _ _ _)).imp Prod.fst fun _ => id
  have hrest {x x' : Bindings} {es' : List Element}
      (h : List.Forall₂ (Element.Matches x x') es es') : (C.fixed x x').Runs
        (do (← onContext (Element.evalAll x es [])).reverse.forM writeValue)
        (do (← onContext (Element.evalAll x' es' [])).reverse.forM writeValue) :=
    (runs_framed (runs_onContext (Element.runs_evalAll C.hidden h hcalls [])) (hkeeps σ x es)
      (hkeeps τ x' es')).bind fun stack => .forM runs_writeValue _
  refine .get ?_ ?_
  · intro m n h
    obtain ⟨hmn, rfl, rfl⟩ := h
    exact (hrest h).together m n ⟨hmn, rfl, rfl⟩
  · intro e n m
    have hsame : List.Forall₂ (Element.Matches m.bindings m.bindings) es es :=
      List.forall₂_same.2 fun e _ => .refl m.bindings e
    exact (hrest hsame).onward e n

/-! ## Loops -/

/-- The bindings `b` and `b'` with one more value on top, the same for a name in each. -/
def Topped (b b' : Bindings) (name name' : String) (x x' : Bindings) : Prop :=
  ∃ v, x = b.bind name v ∧ x' = b'.bind name' v

variable {b b' : Bindings} {name name' : String}

theorem runs_peek : (C.under (Topped b b' name name')).Runs (peek name) (peek name') := by
  constructor
  · intro m n h
    obtain ⟨hmn, v, hm, hn⟩ := h
    rw [peek_of_find? (by rw [hm, Bindings.find?_bind_self]),
      peek_of_find? (by rw [hn, Bindings.find?_bind_self])]
    exact .ok ⟨hmn, v, hm, hn⟩
  · exact fun _ _ => Preserves.get.bind fun _ => preserves_ofExcept _

theorem runs_rebind (v : Value) :
    (C.under (Topped b b' name name')).Runs (rebind name v) (rebind name' v) := by
  refine .modify ?_ fun _ n _ ha => C.ahead_bindings ha _ n.bindings
  intro m n h
  obtain ⟨hmn, w, hm, hn⟩ := h
  refine ⟨C.same_bindings hmn _ _, v, ?_, ?_⟩
  · rw [hm, Bindings.rebind_bind]
  · rw [hn, Bindings.rebind_bind]

theorem runs_nextRound (r : Bounds) :
    (C.under (Topped b b' name name')).Runs (nextRound name r) (nextRound name' r) := by
  refine runs_peek.bind fun current => (runs_ofExcept _).bind fun order => ?_
  split
  · exact .pure _
  · exact runs_countIteration.bind fun _ => .pure _

theorem runs_advance (r : Bounds) :
    (C.under (Topped b b' name name')).Runs (advance name r) (advance name' r) := by
  refine runs_peek.bind fun current => ?_
  split
  · exact (runs_rebind _).bind fun _ => .pure _
  · exact .pure _
  · exact .throw (C.alike_refl _)

theorem runs_rounds {body : Exec σ Unit} {body' : Exec τ Unit} (r : Bounds)
    (hbody : (C.under (Topped b b' name name')).Runs body body') (more : Nat) :
    (C.under (Topped b b' name name')).Runs (rounds name r body more)
      (rounds name' r body' more) := by
  induction more with
  | zero => exact .throw (C.alike_refl _)
  | succ more ih =>
    refine (runs_nextRound r).bind fun next => ?_
    cases next with
    | none => exact .pure _
    | some _ =>
      refine hbody.bind fun _ => (runs_advance r).bind fun again => ?_
      cases again with
      | true => exact ih
      | false => exact .pure _

theorem runs_withBinding {body : Exec σ Unit} {body' : Exec τ Unit} (v : Value)
    (hbody : (C.under (Topped b b' name name')).Runs body body') (htop : StaysOnTop name body)
    (htop' : StaysOnTop name' body') :
    (C.fixed b b').Runs (withBinding name v body) (withBinding name' v body') := by
  constructor
  · intro m n h
    obtain ⟨hmn, rfl, rfl⟩ := h
    rw [withBinding_eq htop, withBinding_eq htop']
    refine (hbody.together _ _ ⟨C.same_bindings hmn _ _, v, rfl, rfl⟩).mapState ?_ ?_ ?_
    · intro s t hst
      exact ⟨C.same_bindings hst.1 _ _, rfl, rfl⟩
    · exact fun _ _ => id
    · intro s e t ha
      exact C.ahead_bindings ha _ _
  · intro e n m ha
    rw [ends_iff_finalState, withBinding_eq htop, finalState_mapState]
    have hstart := C.ahead_bindings ha (m.bindings.bind name v) n.bindings
    exact C.ahead_bindings ((hbody.onward e n).finalState hstart) _ n.bindings

theorem stepOf_matches {head head' : LoopHead}
    (h : Option.Rel (Element.Matches b b') head.step head'.step) :
    stepOf b' head' = stepOf b head := by
  unfold stepOf
  generalize head.step = step at h
  generalize head'.step = step' at h
  cases h with
  | none => rfl
  | some he => exact he.bound

/-- The bounds of matching loops are the same; only the fault of a zero step names the loop. -/
theorem runs_bounds {names : String → String → Prop} {head head' : LoopHead}
    (hnames : ∀ x y, names x y → C.alike (.fault (.zeroStep x)) (.fault (.zeroStep y)))
    (h : head.Matches names b b' head') :
    (C.under B).Runs (ofExcept (bounds b head) : Exec σ Bounds) (ofExcept (bounds b' head')) := by
  simp only [bounds, h.start.bound, h.stop.bound, stepOf_matches h.step, ofExcept_bind]
  refine (runs_ofExcept _).bind fun start => (runs_ofExcept _).bind fun stop =>
    (runs_ofExcept _).bind fun step => (runs_ofExcept _).bind fun order => ?_
  cases order with
  | eq => exact .throw (hnames _ _ h.name)
  | lt => exact .pure _
  | gt => exact .pure _

/-- Bodies that run alike for every value of the variables run alike in the rounds. -/
theorem runs_topped {body : Exec σ Unit} {body' : Exec τ Unit}
    (hbody : ∀ v, (C.fixed (b.bind name v) (b'.bind name' v)).Runs body body') :
    (C.under (Topped b b' name name')).Runs body body' := by
  refine ⟨?_, (hbody .absent).onward⟩
  intro m n h
  obtain ⟨hmn, v, hm, hn⟩ := h
  refine ((hbody v).together m n ⟨hmn, hm, hn⟩).imp ?_
  intro s t h
  obtain ⟨hst, hs, ht⟩ := h
  exact ⟨hst, v, hs, ht⟩

/-- A loop runs like another one if its body does, whatever value the variables of both have. -/
theorem runs_loop {names : String → String → Prop} {head head' : LoopHead} {limit : Nat}
    {body : Exec σ Unit} {body' : Exec τ Unit}
    (hnames : ∀ x y, names x y → C.alike (.fault (.zeroStep x)) (.fault (.zeroStep y)))
    (hscoped : Scoped body) (hscoped' : Scoped body') (h : head.Matches names b b' head')
    (hbody : ∀ v, (C.fixed (b.bind head.name v) (b'.bind head'.name v)).Runs body body') :
    (C.fixed b b').Runs (loop limit head body) (loop limit head' body') := by
  have hrounds (r : Bounds) : (C.fixed b b').Runs
      (withBinding head.name (.number r.start) (rounds head.name r body limit))
      (withBinding head'.name (.number r.start) (rounds head'.name r body' limit)) :=
    runs_withBinding _ (runs_rounds r (runs_topped hbody) limit)
      (staysOnTop_rounds r hscoped limit) (staysOnTop_rounds r hscoped' limit)
  refine .get ?_ ?_
  · intro m n h
    obtain ⟨hmn, rfl, rfl⟩ := h
    exact ((runs_bounds hnames h).bind hrounds).together m n ⟨hmn, rfl, rfl⟩
  · exact fun e n m => (preserves_ofExcept _).bind fun r => (hrounds r).onward e n

/-! ## Templates -/

theorem runs_template {names : String → String → Prop} {ns ns' : List Node}
    (hnames : ∀ x y, names x y → C.alike (.fault (.zeroStep x)) (.fault (.zeroStep y)))
    (h : Template.Matches names b b' ns ns')
    (hcalls : ∀ f ∈ Template.builtins ns, C.calls f) (limit : Nat) :
    (C.fixed b b').Runs (Template.run limit ns) (Template.run limit ns') := by
  induction h with
  | nil => exact .pure ()
  | text _ ih => exact (runs_write _).bind fun _ => ih hcalls
  | echo hes _ ih =>
    simp only [Template.builtins, Node.builtins, List.mem_append] at hcalls
    exact (runs_echo hes fun f hf => hcalls f (.inl hf)).bind fun _ =>
      ih fun f hf => hcalls f (.inr hf)
  | loop hhead _ _ ihbody ih =>
    simp only [Template.builtins, Node.builtins, List.mem_append] at hcalls
    refine (runs_loop hnames ?_ ?_ hhead fun v => ihbody v fun f hf => hcalls f (.inl hf)).bind
      fun _ => ih fun f hf => hcalls f (.inr hf)
    · exact (compatible_scoped limit).template _
    · exact (compatible_scoped limit).template _

/-- A template runs alike from one set of bindings. -/
theorem runs_self {ns : List Node} (hcalls : ∀ f ∈ Template.builtins ns, C.calls f) (limit : Nat)
    (b : Bindings) : (C.fixed b b).Runs (Template.run limit ns) (Template.run limit ns) := by
  have hmatches : Template.Matches Eq b b ns ns := .refl (fun _ => rfl) b ns
  refine runs_template ?_ hmatches hcalls limit
  intro x y hxy
  rw [hxy]
  exact C.alike_refl _

end Exec

/-- Visits to two machines end alike, with bound again what was bound in each, or the second one has
stopped early. -/
def Comparison.Visits [Writer σ] [Writer τ] (C : Comparison σ τ) (m : MachineOn σ) (n : MachineOn τ)
    (v : Visit σ) (w : Visit τ) : Prop :=
  (C.same v.machine w.machine ∧ v.machine.bindings = m.bindings ∧
    w.machine.bindings = n.bindings ∧ Option.Rel C.alike v.halt w.halt) ∨
  ∃ e, w.halt = some e ∧ C.ahead v.machine e w.machine

theorem Comparison.visits_of_runs [Writer σ] [Writer τ] (C : Comparison σ τ) {t t' : Template}
    {m : MachineOn σ} {n : MachineOn τ} {limit : Nat}
    (h : (C.fixed m.bindings n.bindings).Runs (Template.run limit t) (Template.run limit t'))
    (hmn : C.same m n) :
    C.Visits m n (t.visit limit m) (t'.visit limit n) := by
  have hpair := h.together m n ⟨hmn, rfl, rfl⟩
  unfold Comparison.Visits Template.visit
  cases hrun : Template.run limit t m with
  | ok u m' =>
    rw [hrun] at hpair
    cases hrun' : Template.run limit t' n with
    | ok u n' =>
      rw [hrun'] at hpair
      cases hpair with
      | ok hsame => exact .inl ⟨hsame.1, hsame.2.1, hsame.2.2, .none⟩
    | error e n' =>
      rw [hrun'] at hpair
      cases hpair with
      | stopped hahead => exact .inr ⟨e, rfl, hahead⟩
  | error e m' =>
    rw [hrun] at hpair
    cases hrun' : Template.run limit t' n with
    | ok u n' => rw [hrun'] at hpair; cases hpair
    | error e' n' =>
      rw [hrun'] at hpair
      cases hpair with
      | error halike hsame => exact .inl ⟨hsame.1, hsame.2.1, hsame.2.2, .some halike⟩
      | stopped hahead => exact .inr ⟨e', rfl, hahead⟩

/-- Visits of matching templates to machines that stand for each other. -/
theorem Comparison.visits [Writer σ] [Writer τ] (C : Comparison σ τ)
    {names : String → String → Prop} {t t' : Template} {m : MachineOn σ} {n : MachineOn τ}
    (hnames : ∀ x y, names x y → C.alike (.fault (.zeroStep x)) (.fault (.zeroStep y)))
    (h : Template.Matches names m.bindings n.bindings t t')
    (hcalls : ∀ f ∈ Template.builtins t, C.calls f) (hmn : C.same m n) (limit : Nat) :
    C.Visits m n (t.visit limit m) (t'.visit limit n) :=
  C.visits_of_runs (Exec.runs_template hnames h hcalls limit) hmn

/-- Visits of one template to machines with the same bindings. -/
theorem Comparison.visits_self [Writer σ] [Writer τ] (C : Comparison σ τ) {t : Template}
    {m : MachineOn σ} {n : MachineOn τ} (hmn : C.same m n) (hbindings : n.bindings = m.bindings)
    (hcalls : ∀ f ∈ Template.builtins t, C.calls f) (limit : Nat) :
    C.Visits m n (t.visit limit m) (t.visit limit n) := by
  refine C.visits_of_runs ?_ hmn
  rw [hbindings]
  exact Exec.runs_self hcalls limit _

theorem eq_of_rel_eq {x y : Option α} (h : Option.Rel Eq x y) : y = x := by
  cases h with
  | none => rfl
  | some hxy => rw [hxy]

/-! ## Related contexts -/

/-- Machines with the same output and count on related contexts, whatever is bound in them. -/
structure MachineOn.Related (R : Context → Context → Prop) (m n : MachineOn σ) : Prop where
  sink : n.sink = m.sink
  context : R m.context n.context
  iterations : n.iterations = m.iterations

/-- Runs that both go to their end, with halts that are alike. -/
def Comparison.upTo [Writer σ] {calls : Builtin → Prop} {R : Context → Context → Prop}
    (hidden : Context.Hidden calls R)
    (hlimit : ∀ {c d}, R c d → d.maxLoopIterations = c.maxLoopIterations)
    {alike : Halt → Halt → Prop} (hrefl : ∀ h, alike h h) : Comparison σ σ where
  same := MachineOn.Related R
  alike := alike
  ahead _ _ _ := False
  contexts := R
  calls := calls
  hidden := hidden
  same_contexts h := h.context
  same_with h _ _ hcd _ _ := ⟨h.sink, hcd, h.iterations⟩
  ahead_with h _ _ _ := h.elim
  alike_refl := hrefl
  write s := by
    refine ⟨fun m n h => ?_, fun _ _ => .never⟩
    unfold Exec.write
    rw [h.sink]
    split
    · exact .ok ⟨rfl, h.context, h.iterations⟩
    · exact .error (hrefl _) ⟨rfl, h.context, h.iterations⟩
  count := Exec.runs_count (fun h => ⟨h.sink, h.context, congrArg Nat.succ h.iterations⟩)
    (fun h => h.iterations) (fun h => hlimit h.context) hrefl fun h => h.elim

end TagTemplate
