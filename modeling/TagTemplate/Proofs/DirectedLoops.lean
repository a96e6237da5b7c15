import TagTemplate.Proofs.Canonical
import TagTemplate.Proofs.IntegralLoops
import TagTemplate.Proofs.NumericOperands
import TagTemplate.Proofs.RoundTrip
import TagTemplate.Proofs.RoundedSums
import TagTemplate.Proofs.StoredParameters
import TagTemplate.Proofs.UnboundVariables

/-! Loops keep to their bounds, in integers, in doubles, and where the two are mixed. A template has
no other numbers than finite ones in its tags, and what is bound to variables is finite as well: a
variable starts at a finite bound and moves away from it in one direction, and before it could get
past the largest number it has passed its end. So no comparison of a loop ever fails. -/

namespace TagTemplate

/-! ## Bounds that are finite -/

/-- All that is bound is a finite number. -/
abbrev Bindings.Finite (b : Bindings) : Prop :=
  b.All fun v => ∃ n : Number, v = .number n ∧ n.isFinite = true

/-- A text that reads as a number reads as a finite one. -/
theorem Value.isFinite_of_text {s : String} {x : Number} (h : (Value.text s).toNumber = .ok x) :
    x.isFinite = true := by
  have hspelled : numberOfChars? s.toList = some x := by
    cases hn : numberOfChars? s.toList with
    | some n => rw [toNumber, hn] at h; cases h; rfl
    | none => rw [toNumber, hn] at h; cases h
  unfold numberOfChars? at hspelled
  split at hspelled
  · cases hspelled
    rfl
  · obtain ⟨y, -, hy⟩ := Option.bind_eq_some_iff.1 hspelled
    obtain ⟨hfinite, hx⟩ := Option.ite_none_right_eq_some.1 hy
    cases hx
    exact hfinite

namespace Element

variable {b : Bindings} {e : Element}

theorem isFinite_bound (hb : b.Finite) (he : e.Canonical) {x : Number} (hx : e.bound b = .ok x) :
    x.isFinite = true := by
  cases e with
  | integer n => cases hx; rfl
  | double y => cases hx; exact he
  | string s => exact Value.isFinite_of_text hx
  | var name =>
    have hvalue : (b.lookup name >>= Value.toNumber) = .ok x := hx
    obtain ⟨v, hv, hnumber⟩ := bind_eq_ok_iff.1 hvalue
    obtain ⟨n, rfl, hn⟩ := hb.lookup hv
    cases hnumber
    exact hn
  | function name => cases hx
  | operator symbol => cases hx

/-- A bound that is not a number is written as a text that spells none. -/
theorem bound_notANumber (hb : b.Finite) {text : String}
    (h : e.bound b = .error (.notANumber text)) :
    e = .string text ∧ (Value.text text).toNumber = .error (.notANumber text) := by
  cases e with
  | integer n => cases h
  | double y => cases h
  | string s =>
    have hread : (Value.text s).toNumber = .error (.notANumber text) := h
    rcases Value.toNumber_cases (.text s) with ⟨n, hn⟩ | hn
    · cases hn.symm.trans hread
    · cases hn.symm.trans hread
      exact ⟨rfl, hread⟩
  | var name =>
    have hvalue : (b.lookup name >>= Value.toNumber) = .error (.notANumber text) := h
    rcases bind_eq_error_iff.1 hvalue with hlookup | ⟨v, hv, hnumber⟩
    · unfold Bindings.lookup at hlookup
      split at hlookup <;> cases hlookup
    · obtain ⟨n, rfl, -⟩ := hb.lookup hv
      cases hnumber
  | function name => cases h
  | operator symbol => cases h

end Element

/-- Numbers add up, or overflow. -/
theorem Number.add_ne_notANumber (x y : Number) (text : String) :
    x.add y ≠ .error (.notANumber text) := by
  unfold add ofExact
  intro h
  split at h
  · split at h <;> cases h
  · cases h

/-- A bound or a step of the loop is written as this text, which spells no number. -/
def LoopHead.Misreads (head : LoopHead) (text : String) : Prop :=
  (Value.text text).toNumber = .error (.notANumber text) ∧
    (head.start = .string text ∨ head.stop = .string text ∨ head.step = some (.string text))

namespace Exec

variable {b : Bindings} {head : LoopHead}

theorem compare_number {x y : Number} (hx : x.isNaN = false) (hy : y.isNaN = false) :
    (Value.number x).compare (.number y) = .ok (compare x.place y.place) :=
  Value.compare_of_toNumber rfl hx rfl hy

theorem isFinite_stepOf (hb : b.Finite) (hhead : head.Canonical) {step : Number}
    (h : stepOf b head = .ok step) : step.isFinite = true := by
  unfold stepOf at h
  split at h
  · rename_i e he
    exact Element.isFinite_bound hb (hhead.step e he).2 h
  · cases h
    rfl

/-- A finite step compares with zero. -/
theorem compare_step {step : Number} (h : step.isFinite = true) :
    (Value.number step).compare (.integer 0) = .ok (compare step.place (Number.integer 0).place) :=
  compare_number (Number.isNaN_of_isFinite h) rfl

/-- The bounds are finite, and the loop goes the way of its step. -/
structure Bounds.Directed (r : Bounds) : Prop where
  start : r.start.isFinite = true
  stop : r.stop.isFinite = true
  step : r.step.isFinite = true
  direction : (Value.number r.step).compare (.integer 0) = .ok (if r.descending then .lt else .gt)

theorem bounds_directed (hb : b.Finite) (hhead : head.Canonical) {r : Bounds}
    (h : bounds b head = .ok r) : r.Directed := by
  obtain ⟨x, hstart, h⟩ := bind_eq_ok_iff.1 h
  obtain ⟨y, hstop, h⟩ := bind_eq_ok_iff.1 h
  obtain ⟨z, hstep, h⟩ := bind_eq_ok_iff.1 h
  obtain ⟨order, horder, h⟩ := bind_eq_ok_iff.1 h
  have hx := Element.isFinite_bound hb hhead.start.2 hstart
  have hy := Element.isFinite_bound hb hhead.stop.2 hstop
  have hz := isFinite_stepOf hb hhead hstep
  cases order with
  | eq => cases h
  | lt => cases h; exact ⟨hx, hy, hz, horder⟩
  | gt => cases h; exact ⟨hx, hy, hz, horder⟩

theorem bounds_notANumber (hb : b.Finite) (hhead : head.Canonical) {text : String}
    (h : bounds b head = .error (.notANumber text)) : head.Misreads text := by
  rcases bind_eq_error_iff.1 h with hstart | ⟨x, -, h⟩
  · obtain ⟨he, hread⟩ := Element.bound_notANumber hb hstart
    exact ⟨hread, .inl he⟩
  rcases bind_eq_error_iff.1 h with hstop | ⟨y, -, h⟩
  · obtain ⟨he, hread⟩ := Element.bound_notANumber hb hstop
    exact ⟨hread, .inr (.inl he)⟩
  rcases bind_eq_error_iff.1 h with hstep | ⟨z, hstep, h⟩
  · unfold stepOf at hstep
    split at hstep
    · rename_i e hwritten
      obtain ⟨rfl, hread⟩ := Element.bound_notANumber hb hstep
      exact ⟨hread, .inr (.inr hwritten)⟩
    · cases hstep
  -- what is left looks at the direction, which every finite step has
  rw [compare_step (isFinite_stepOf hb hhead hstep)] at h
  rcases bind_eq_error_iff.1 h with horder | ⟨order, -, h⟩
  · cases horder
  · cases order <;> cases h

/-! ## Onward -/

/-- Going the way of the loop, the second number does not come before the first one. -/
def Bounds.Onward (r : Bounds) (x y : Number) : Prop :=
  ∃ order, (Value.number x).compare (.number y) = .ok order ∧
    (if r.descending then order.isGE else order.isLE) = true

namespace Bounds

variable {r : Bounds} {x y z : Number}

theorem past_eq_false_iff {order : Ordering} : r.past order = false ↔
    (if r.descending then order.isGE else order.isLE) = true := by
  unfold past
  cases r.descending <;> cases order <;> decide

theorem onward_iff (hx : x.isNaN = false) (hy : y.isNaN = false) :
    r.Onward x y ↔ if r.descending then y.place ≤ x.place else x.place ≤ y.place := by
  unfold Onward
  rw [compare_number hx hy]
  simp only [Except.ok.injEq, exists_eq_left']
  split
  · exact Std.isGE_compare
  · exact Std.isLE_compare

theorem Onward.refl (hx : x.isNaN = false) : r.Onward x x := by
  rw [onward_iff hx hx]
  split <;> exact Int.le_refl _

theorem Onward.trans (hx : x.isNaN = false) (hy : y.isNaN = false) (hz : z.isNaN = false)
    (h : r.Onward x y) (h' : r.Onward y z) : r.Onward x z := by
  rw [onward_iff hx hy] at h
  rw [onward_iff hy hz] at h'
  rw [onward_iff hx hz]
  by_cases hdown : r.descending = true
  · rw [if_pos hdown] at *
    exact Int.le_trans h' h
  · rw [if_neg hdown] at *
    exact Int.le_trans h h'

/-- A variable on its way from the start to the end is finite. -/
theorem Directed.isFinite (hr : r.Directed) (hx : x.isNaN = false) (h : r.Onward r.start x)
    (h' : r.Onward x r.stop) : x.isFinite = true := by
  rw [onward_iff (Number.isNaN_of_isFinite hr.start) hx] at h
  rw [onward_iff hx (Number.isNaN_of_isFinite hr.stop)] at h'
  split at h
  · rename_i hdown
    rw [if_pos hdown] at h'
    exact Number.isFinite_of_between hr.stop hx hr.start h' h
  · rename_i hup
    rw [if_neg hup] at h'
    exact Number.isFinite_of_between hr.start hx hr.stop h h'

/-- A step is never taken against its own direction, however it is rounded. -/
theorem Directed.add (hr : r.Directed) (hx : x.isFinite = true) (h : x.add r.step = .ok y) :
    y.isNaN = false ∧ r.Onward x y := by
  obtain ⟨hy, hup, hdown⟩ := Number.add_of_isFinite hx hr.step h
  refine ⟨hy, (onward_iff (Number.isNaN_of_isFinite hx) hy).2 ?_⟩
  have hzero : (Number.integer 0).place = 0 := Int.zero_mul _
  have hdirection := (compare_step hr.step).symm.trans hr.direction
  rw [hzero] at hdirection
  split
  · rename_i hdescending
    rw [if_pos hdescending] at hdirection
    exact hdown (Int.le_of_lt (compare_lt_iff_lt.1 (Except.ok.inj hdirection)))
  · rename_i hascending
    rw [if_neg hascending] at hdirection
    exact hup (Int.le_of_lt (compare_gt_iff_gt.1 (Except.ok.inj hdirection)))

end Bounds

/-! ## One round -/

variable {σ : Type} {name : String} {r : Bounds} {body : Exec σ Unit} {m m' : MachineOn σ}
  {v : Number}

/-- The variable has come to a number on its way from the start. -/
structure Bounds.Holds (r : Bounds) (name : String) (b : Bindings) (v : Number)
    (m : MachineOn σ) : Prop where
  bindings : m.bindings = b.bind name (.number v)
  comparable : v.isNaN = false
  onward : r.Onward r.start v

namespace Bounds.Holds

theorem begins (hr : r.Directed) (m : MachineOn σ) : r.Holds name m.bindings r.start
    { m with bindings := m.bindings.bind name (.number r.start) } :=
  have hstart := Number.isNaN_of_isFinite hr.start
  ⟨rfl, hstart, .refl hstart⟩

theorem find? (h : r.Holds name b v m) : m.bindings.find? name = some (.number v) :=
  find?_of_bind h.bindings

/-- The comparison with the end does not fail. -/
theorem compare (h : r.Holds name b v m) (hr : r.Directed) :
    (Value.number v).compare (.number r.stop) = .ok (Ord.compare v.place r.stop.place) :=
  compare_number h.comparable (Number.isNaN_of_isFinite hr.stop)

/-- A round is started with the variable where it was, and not past the end. -/
theorem nextRound (h : r.Holds name b v m) (hr : r.Directed) {w : Value}
    (hnext : Exec.nextRound name r m = .ok (some w) m') :
    r.Holds name b v m' ∧ r.Onward v r.stop := by
  constructor
  · rcases (Ends.of_ok hnext).1 (ends_nextRound r h.find?) with ⟨⟨⟩, -⟩ | ⟨-, rfl, -⟩
    exact ⟨h.bindings, h.comparable, h.onward⟩
  · rw [nextRound_eq h.find? (h.compare hr)] at hnext
    split at hnext
    · cases hnext
    · rename_i hpast
      exact ⟨_, h.compare hr, past_eq_false_iff.1 (Bool.eq_false_iff.2 hpast)⟩

theorem run (h : r.Holds name b v m) (hbody : Scoped body) (hrun : body m = .ok () m') :
    r.Holds name b v m' :=
  ⟨((Ends.of_ok hrun).1 (hbody m)).trans h.bindings, h.comparable, h.onward⟩

theorem advance (h : r.Holds name b v m) (hr : r.Directed) (hv : v.isFinite = true)
    (hagain : Exec.advance name r m = .ok true m') :
    ∃ w, r.Holds name b w m' ∧ r.Onward v w := by
  rcases (Ends.of_ok hagain).1 (ends_advance r h.find?) with ⟨-, w, hw, rfl⟩ | ⟨⟨⟩, -⟩
  obtain ⟨hcomparable, honward⟩ := hr.add hv hw
  have hstart := Number.isNaN_of_isFinite hr.start
  exact ⟨w, ⟨rebind_of_bind h.bindings _, hcomparable,
    h.onward.trans hstart h.comparable hcomparable honward⟩, honward⟩

/-- After a whole round the variable holds a number further on. -/
theorem oneRound (h : r.Holds name b v m) (hr : r.Directed) (hbody : Scoped body)
    (hround : Exec.oneRound name r body m = .ok true m') :
    ∃ w, r.Holds name b w m' ∧ r.Onward v w := by
  obtain ⟨_, m₁, m₂, hnext, hrun, hagain⟩ := oneRound_again hround
  obtain ⟨h₁, hstop⟩ := h.nextRound hr hnext
  exact (h₁.run hbody hrun).advance hr (hr.isFinite h.comparable h.onward hstop) hagain

theorem not_failsWith_nextRound (h : r.Holds name b v m) (hr : r.Directed) (text : String) :
    ¬FailsWith (.fault (.notANumber text)) (Exec.nextRound name r) m := by
  intro hfails
  rw [FailsWith, nextRound_eq h.find? (h.compare hr)] at hfails
  split at hfails
  · obtain ⟨m', ⟨⟩⟩ := hfails
  · rcases FailsWith.bind_iff.1 hfails with hcount | ⟨u, m₁, -, hpure⟩
    · obtain ⟨m', -, limit, -, -, hlimit⟩ := (ends_countIteration m).of_failsWith hcount
      cases hlimit
    · exact FailsWith.pure_iff.1 hpure

theorem not_failsWith_advance (h : r.Holds name b v m) (text : String) :
    ¬FailsWith (.fault (.notANumber text)) (Exec.advance name r) m := by
  intro hfails
  obtain ⟨m', -, e, he, hfault⟩ := (ends_advance r h.find?).of_failsWith hfails
  cases hfault
  exact Number.add_ne_notANumber v r.step text he

/-- A round fails for want of a number only in the body. -/
theorem oneRound_notANumber (h : r.Holds name b v m) (hr : r.Directed) (hbody : Scoped body)
    {text : String}
    (hfails : FailsWith (.fault (.notANumber text)) (Exec.oneRound name r body) m) :
    ∃ w m₁, Exec.nextRound name r m = .ok (some w) m₁ ∧
      FailsWith (.fault (.notANumber text)) body m₁ := by
  rcases FailsWith.bind_iff.1 hfails with hnext | ⟨next, m₁, hnext, hrest⟩
  · exact absurd hnext (h.not_failsWith_nextRound hr text)
  cases next with
  | none => exact (FailsWith.pure_iff.1 hrest).elim
  | some w =>
    rcases FailsWith.bind_iff.1 hrest with hrun | ⟨u, m₂, hrun, hagain⟩
    · exact ⟨w, m₁, hnext, hrun⟩
    · have h₂ := (h.nextRound hr hnext).1.run hbody hrun
      exact absurd hagain (h₂.not_failsWith_advance text)

end Bounds.Holds

/-! ## All rounds -/

theorem looks_hold (hr : r.Directed) (hbody : Scoped body) (more : Nat)
    (h : r.Holds name b v m) : ∀ m' ∈ looks name r body more m, ∃ w, r.Holds name b w m' := by
  refine forall_looks (fun ⟨_, h⟩ hround => ?_) more ⟨v, h⟩
  obtain ⟨w, hw, -⟩ := h.oneRound hr hbody hround
  exact ⟨w, hw⟩

theorem entries_hold (hr : r.Directed) (hbody : Scoped body) (more : Nat)
    (h : r.Holds name b v m) : ∀ m' ∈ entries name r body more m,
      ∃ w, r.Holds name b w m' ∧ w.isFinite = true ∧ r.Onward v w ∧ r.Onward w r.stop := by
  refine forall_entries (p := fun m => ∃ w, r.Holds name b w m ∧ r.Onward v w) ?_ ?_ more
    ⟨v, h, .refl h.comparable⟩
  · intro m m' ⟨w, hw, hvw⟩ hround
    obtain ⟨u, hu, hwu⟩ := hw.oneRound hr hbody hround
    exact ⟨u, hu, hvw.trans h.comparable hw.comparable hu.comparable hwu⟩
  · intro m m' _ ⟨w, hw, hvw⟩ hnext
    obtain ⟨hw', hstop⟩ := hw.nextRound hr hnext
    exact ⟨w, hw', hr.isFinite hw.comparable hw.onward hstop, hvw, hstop⟩

/-- On the first machine the variable does not have a value beyond the one on the second. -/
def Bounds.InOrder (r : Bounds) (name : String) (m₁ m₂ : MachineOn σ) : Prop :=
  ∀ v w : Number, m₁.bindings.find? name = some (.number v) →
    m₂.bindings.find? name = some (.number w) → r.Onward v w

theorem entries_inOrder (hr : r.Directed) (hbody : Scoped body) (more : Nat)
    (h : r.Holds name b v m) : (entries name r body more m).IsChain (r.InOrder name) := by
  induction more generalizing m v with
  | zero => exact .nil
  | succ more ih =>
    rw [entries]
    split
    · rename_i w m₁ hnext
      have hfind := (h.nextRound hr hnext).1.find?
      split
      · rename_i m₂ hround
        obtain ⟨w, h₂, hvw⟩ := h.oneRound hr hbody hround
        refine List.isChain_cons.2 ⟨fun m' hhead v' w' hv' hw' => ?_, ih h₂⟩
        obtain ⟨u, hu, -, hwu, -⟩ := entries_hold hr hbody more h₂ m' (List.mem_of_mem_head? hhead)
        cases hfind.symm.trans hv'
        cases hu.find?.symm.trans hw'
        exact hvw.trans h.comparable h₂.comparable hu.comparable hwu
      · exact .singleton _
    · exact .nil

theorem rounds_notANumber (hr : r.Directed) (hbody : Scoped body) (more : Nat)
    (h : r.Holds name b v m) {text : String}
    (hfails : FailsWith (.fault (.notANumber text)) (rounds name r body more) m) :
    ∃ m₁ ∈ entries name r body more m, FailsWith (.fault (.notANumber text)) body m₁ := by
  induction more generalizing m v with
  | zero => cases FailsWith.throw_iff.1 hfails
  | succ more ih =>
    rw [rounds_succ] at hfails
    rw [entries]
    rcases FailsWith.bind_iff.1 hfails with hround | ⟨again, m₂, hround, hrest⟩
    · obtain ⟨w, m₁, hnext, hbody⟩ := h.oneRound_notANumber hr hbody hround
      rw [hnext]
      exact ⟨m₁, List.mem_cons_self, hbody⟩
    · cases again with
      | false => exact (FailsWith.pure_iff.1 hrest).elim
      | true =>
        obtain ⟨_, m₁, _, hnext, -⟩ := oneRound_again hround
        obtain ⟨w, h₂, -⟩ := h.oneRound hr hbody hround
        obtain ⟨m₃, hmem, hfails⟩ := ih h₂ hrest
        rw [hnext, hround]
        exact ⟨m₃, List.mem_cons_of_mem _ hmem, hfails⟩

/-- What the bounds of a loop say about its rounds. -/
structure Bounds.Govern (r : Bounds) (name : String) (looks entries : List (MachineOn σ)) :
    Prop where
  direction : (Value.number r.step).compare (.integer 0) = .ok (if r.descending then .lt else .gt)
  /-- The comparison with the end does not fail, whenever the variable has got a value. -/
  compared : ∀ m ∈ looks, ∃ v order, m.bindings.find? name = some v ∧
    v.compare (.number r.stop) = .ok order
  /-- Where the body is started, the variable lies between start and end. -/
  between : ∀ m ∈ entries, ∃ v : Number, m.bindings.find? name = some (.number v) ∧
    v.isFinite = true ∧ r.Onward r.start v ∧ r.Onward v r.stop
  inOrder : entries.IsChain (r.InOrder name)

theorem Bounds.Directed.govern (hr : r.Directed) (hbody : Scoped body) (more : Nat)
    (h : r.Holds name b v m) :
    r.Govern name (Exec.looks name r body more m) (Exec.entries name r body more m) := by
  refine ⟨hr.direction, fun m' hmem => ?_, fun m' hmem => ?_, entries_inOrder hr hbody more h⟩
  · obtain ⟨w, hw⟩ := looks_hold hr hbody more h m' hmem
    exact ⟨_, _, hw.find?, hw.compare hr⟩
  · obtain ⟨w, hw, hfinite, -, hstop⟩ := entries_hold hr hbody more h m' hmem
    exact ⟨w, hw.find?, hfinite, hw.onward, hstop⟩

/-! ## One loop -/

/-- The loop makes its rounds between its bounds, and no comparison of its own ever fails: for want
of a number it fails only if one of its bounds spells none, or in its body. -/
structure KeepsToBounds (limit : Nat) (head : LoopHead) (body : Exec σ Unit) (m : MachineOn σ) :
    Prop where
  step : ∀ step, stepOf m.bindings head = .ok step →
    ∃ order, (Value.number step).compare (.integer 0) = .ok order
  rounds : ∀ r, bounds m.bindings head = .ok r →
    let begun := { m with bindings := m.bindings.bind head.name (.number r.start) }
    r.Govern head.name (looks head.name r body limit begun) (entries head.name r body limit begun)
  fails : ∀ text, FailsWith (.fault (.notANumber text)) (loop limit head body) m →
    (bounds m.bindings head = .error (.notANumber text) ∧ head.Misreads text) ∨
      ∃ r, bounds m.bindings head = .ok r ∧ ∃ m₁ ∈ entries head.name r body limit
          { m with bindings := m.bindings.bind head.name (.number r.start) },
        FailsWith (.fault (.notANumber text)) body m₁

section

variable {limit : Nat} (hb : m.bindings.Finite) (hhead : head.Canonical) (hbody : Scoped body)

include hb hhead hbody

theorem keepsToBounds : KeepsToBounds limit head body m := by
  constructor
  · intro step hstep
    exact ⟨_, compare_step (isFinite_stepOf hb hhead hstep)⟩
  · intro r hr
    have hdirected := bounds_directed hb hhead hr
    exact hdirected.govern hbody limit (.begins hdirected m)
  · intro text hfails
    rcases failsWith_ofExcept_bind.1 (FailsWith.get_bind.1 hfails) with herror | ⟨r, hr, hrounds⟩
    · exact .inl ⟨herror, bounds_notANumber hb hhead herror⟩
    · have hdirected := bounds_directed hb hhead hr
      rw [failsWith_withBinding (staysOnTop_rounds r hbody limit)] at hrounds
      exact .inr ⟨r, hr, rounds_notANumber hdirected hbody limit (.begins hdirected m) hrounds⟩

/-- Its own variable is bound to finite numbers as well. -/
theorem finite_entries (hr : bounds m.bindings head = .ok r) :
    ∀ m₁ ∈ entries head.name r body limit
      { m with bindings := m.bindings.bind head.name (.number r.start) }, m₁.bindings.Finite := by
  intro m₁ hmem
  have hdirected := bounds_directed hb hhead hr
  obtain ⟨v, hv, hfinite, -⟩ := entries_hold hdirected hbody limit (.begins hdirected m) m₁ hmem
  exact hv.bindings ▸ hb.bind head.name ⟨v, rfl, hfinite⟩

end

end Exec

/-! ## Templates -/

variable {σ : Type} [Writer σ] {limit : Nat}

/-- In every body the variables are bound to finite numbers, if they were so before. -/
theorem Template.Visits.finite {ns : List Node} {m m' : MachineOn σ} {calls : List Call} {n : Node}
    (h : Template.Visits limit ns m calls n m') (hns : Template.Canonical ns)
    (hm : m.bindings.Finite) : n.Canonical ∧ m'.bindings.Finite := by
  induction h with
  | here => exact ⟨hns.1, hm⟩
  | @inside head body _ m m₁ _ r earlier later _ _ hbounds hentries _ ih =>
    obtain ⟨hhead, hbody⟩ := hns.1
    have hscoped := (Exec.compatible_scoped limit).template (σ := σ) body
    have hmem : m₁ ∈ earlier ++ m₁ :: later := List.mem_append_right _ List.mem_cons_self
    exact ih hbody (Exec.finite_entries hm hhead hscoped hbounds m₁ (hentries ▸ hmem))
  | @later n _ _ m _ _ _ hrun _ ih =>
    have hkept := (Ends.of_ok hrun).1 ((Exec.compatible_scoped limit).node n m)
    exact ih hns.2.2 (hkept ▸ hm)

/-- The node itself, and not one inside of it, fails for want of a number. -/
def Node.Misreads (text : String) (m : MachineOn σ) : Node → Prop
  | .text _ => False
  | .echo elements =>
    FailsWith (.notANumber text) (Element.evalAll m.bindings elements []) m.context
  | .loop head _ => Exec.bounds m.bindings head = .error (.notANumber text) ∧ head.Misreads text

variable {text : String}

mutual

theorem Node.misreads_of_failsWith : ∀ (n : Node) (ns : List Node) {m : MachineOn σ},
    n.Canonical → m.bindings.Finite → FailsWith (.fault (.notANumber text)) (n.run limit) m →
      ∃ calls n' m', Template.Visits limit (n :: ns) m calls n' m' ∧ n'.Misreads text m'
  | .text s, _, _, _, _, h =>
    absurd h (Exec.not_failsWith_output (fun h => nomatch h) (Exec.output_write s))
  | .echo elements, _, m, _, _, h => by
    have hne : Fault.notANumber text ≠ .outputFull := fun h => nomatch h
    exact ⟨[], .echo elements, m, .here, (Exec.failsWith_echo hne).1 h⟩
  | .loop head body, ns, m, hn, hm, h => by
    have hscoped := (Exec.compatible_scoped limit).template (σ := σ) body
    rcases (Exec.keepsToBounds hm hn.1 hscoped).fails text h with
      hmisreads | ⟨r, hbounds, m₁, hmem, hfails⟩
    · exact ⟨[], .loop head body, m, .here, hmisreads⟩
    · have hfinite := Exec.finite_entries hm hn.1 hscoped hbounds m₁ hmem
      obtain ⟨calls, n', m', hvisits, hmisreads⟩ :=
        Template.misreads_of_failsWith body hn.2 hfinite hfails
      obtain ⟨earlier, later, hentries⟩ := List.append_of_mem hmem
      exact ⟨_, n', m', .inside hbounds hentries hvisits, hmisreads⟩

theorem Template.misreads_of_failsWith : ∀ (ns : List Node) {m : MachineOn σ},
    Template.Canonical ns → m.bindings.Finite →
      FailsWith (.fault (.notANumber text)) (Template.run limit ns) m →
      ∃ calls n m', Template.Visits limit ns m calls n m' ∧ n.Misreads text m'
  | [], _, _, _, h => (FailsWith.pure_iff.1 h).elim
  | n :: ns, m, hns, hm, h => by
    rcases FailsWith.bind_iff.1 h with h | ⟨u, m₁, hrun, h⟩
    · exact Node.misreads_of_failsWith n ns hns.1 hm h
    · have hkept := (Ends.of_ok hrun).1 ((Exec.compatible_scoped limit).node n m)
      obtain ⟨calls, n', m', hvisits, hmisreads⟩ :=
        Template.misreads_of_failsWith ns hns.2.2 (hkept ▸ hm) h
      exact ⟨_, n', m', .later hrun hvisits, hmisreads⟩

end

/-- Every loop of a run keeps to its bounds: wherever its body is started, its variable is a finite
number between start and end, and it never goes back; no comparison of a loop fails. So a run that
fails for want of a number does it in an echo tag, or at a loop one of whose bounds is a text that
spells none. -/
theorem loops_keep_to_bounds {source : String} {t : Template} (ht : Template.parse source = .ok t)
    (limit : Nat) (sink : σ) (context : Context) :
    (∀ calls head body m,
      Template.Visits limit t (Machine.start sink context) calls (.loop head body) m →
        Exec.KeepsToBounds limit head (Template.run limit body) m) ∧
    ∀ text, (t.visit limit (Machine.start sink context)).halt =
        some (.fault (.notANumber text)) →
      ∃ calls n m, Template.Visits limit t (Machine.start sink context) calls n m ∧
        n.Misreads text m := by
  have hcanonical := Template.canonical_of_parse ht
  have hempty : (Machine.start sink context).bindings.Finite := .empty
  constructor
  · intro calls head body m hvisits
    obtain ⟨hn, hm⟩ := hvisits.finite hcanonical hempty
    exact Exec.keepsToBounds hm hn.1 ((Exec.compatible_scoped limit).template body)
  · intro text hhalt
    exact Template.misreads_of_failsWith t hcanonical hempty (Template.visit_halt.1 hhalt)

/-- Counts in steps that no double is equal to. -/
def countingTenths : LoopHead :=
  ⟨"i", .integer 0, .double (Decimal.mk false 3 (-1)).toDouble,
    some (.double (Decimal.mk false 1 (-1)).toDouble)⟩

/-- Counts up to a text that is no number. -/
def countingToText : LoopHead := ⟨"i", .integer 1, .string "x", none⟩

/-- From an integer to a double in one loop, and nowhere in the other one. -/
theorem loops_keep_to_bounds_mixed :
    let t : Template := [.loop countingTenths [.text "x"], .loop countingToText []]
    let start := Machine.start Sink.unbounded .default
    Template.parse "\x7b$ FOR i 0 0.1 0.3 $\x7dx\x7b$END$\x7d\x7b$ FOR i 1 \"x\" $\x7d\x7b$END$\x7d" =
      .ok t ∧
    Exec.KeepsToBounds 5 countingTenths (Template.run 5 [.text "x"]) start ∧
    (t.visit 5 start).machine.sink.written = "xxx" ∧
    (t.visit 5 start).halt = some (.fault (.notANumber "x")) ∧
    ∃ calls n m, Template.Visits 5 t start calls n m ∧ n.Misreads "x" m := by
  intro t start
  have hcanonical : Template.Canonical t := by decide +kernel
  have hsource : Template.toSource t =
      "\x7b$ FOR i 0 0.1 0.3 $\x7dx\x7b$END$\x7d\x7b$ FOR i 1 \"x\" $\x7d\x7b$END$\x7d" := by
    decide +kernel
  have hparse := hsource ▸ hcanonical.parse_toSource
  have hwritten : (t.visit 5 start).machine.sink.written = "xxx" := by decide +kernel
  have hhalt : (t.visit 5 start).halt = some (.fault (.notANumber "x")) := by decide +kernel
  obtain ⟨hkeeps, hfails⟩ := loops_keep_to_bounds hparse 5 Sink.unbounded .default
  exact ⟨hparse, hkeeps [] countingTenths _ start .here, hwritten, hhalt, hfails "x" hhalt⟩

end TagTemplate
