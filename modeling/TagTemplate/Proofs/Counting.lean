import TagTemplate.Proofs.Comparison
import TagTemplate.Proofs.NumberText

/-! Loops that count in integers. The variable is an integer in every round if start and step are
integers, and it matters of the end only how integers compare with it. Where a step would leave the
32-bit integers, the loop is over or fails: there the type of the end does matter. -/

namespace TagTemplate

/-! ## Numbers that stand for integers -/

/-- Integers compare with the number as they do with `n`. -/
def Number.StandsFor (x : Number) (n : Int32) : Prop :=
  ∀ v : Int32, (Number.integer v).compare? x = some (compare v.toInt n.toInt)

theorem Number.standsFor_integer (n : Int32) : (Number.integer n).StandsFor n := fun _ => rfl

namespace Double

theorem fits_mul_two_pow {q k : Nat} (hq : q ≤ 2 ^ 53) (hk : 54 + k ≤ ceilingLog) :
    Fits (q * 2 ^ k) := by
  refine ⟨lt_ceiling (k := 54 + k) ?_ hk, spacing_dvd_mul k hq⟩
  rw [Nat.pow_add]
  exact Nat.mul_lt_mul_of_pos_right (Nat.lt_of_le_of_lt hq (by decide)) (Nat.two_pow_pos k)

theorem fits_natAbs {n : Int} (h : n.natAbs ≤ 2 ^ 53) : Fits (n.natAbs * unitsOfOne) := by
  unfold unitsOfOne
  apply fits_mul_two_pow h
  decide

/-- Integers of at most 53 bits are doubles. -/
theorem ofInt_eq {n : Int} (h : n.natAbs ≤ 2 ^ 53) :
    ofInt n = .finite (decide (n < 0)) (n.natAbs * unitsOfOne) (fits_natAbs h) := by
  refine ofRatio_of_nearest _ ?_
  have hself := nearest_mul_self (fits_natAbs h) Nat.one_pos
  rwa [Nat.mul_one] at hself

theorem signed_natAbs (n : Int) (k : Nat) : signed (decide (n < 0)) (n.natAbs * k) = n * k := by
  unfold signed
  by_cases hneg : n < 0
  · rw [if_pos (decide_eq_true hneg), Nat.cast_mul, Int.ofNat_natAbs_of_nonpos (Int.le_of_lt hneg),
      Int.neg_mul, Int.neg_neg]
  · rw [if_neg (by simpa using hneg), Nat.cast_mul, Int.natAbs_of_nonneg (Int.not_lt.1 hneg)]

theorem compare_mul_pos (m n : Int) {k : Nat} (hk : 0 < k) :
    compare (m * k) (n * k) = compare m n := by
  have hpos : (0 : Int) < k := Int.natCast_pos.2 hk
  rcases Int.lt_trichotomy m n with h | rfl | h
  · rw [compare_lt_iff_lt.2 h, compare_lt_iff_lt.2 (Int.mul_lt_mul_of_pos_right h hpos)]
  · rw [compare_eq_iff_eq.2 rfl, compare_eq_iff_eq.2 rfl]
  · rw [compare_gt_iff_gt.2 h, compare_gt_iff_gt.2 (Int.mul_lt_mul_of_pos_right h hpos)]

end Double

theorem natAbs_toInt_le (n : Int32) : n.toInt.natAbs ≤ 2 ^ 53 := by
  have hlow := n.le_toInt
  have hhigh := n.toInt_lt
  omega

/-- An integer and its double are the same to integers. -/
theorem Number.standsFor_double (n : Int32) : (Number.double (.ofInt n.toInt)).StandsFor n := by
  intro v
  show (Double.ofInt v.toInt).compare? (.ofInt n.toInt) = _
  rw [Double.ofInt_eq (natAbs_toInt_le v), Double.ofInt_eq (natAbs_toInt_le n)]
  show some (compare (Double.signed _ _) (Double.signed _ _)) = _
  rw [Double.signed_natAbs, Double.signed_natAbs, Double.compare_mul_pos _ _ Double.unitsOfOne_pos]

namespace Exec

/-! ## Bounds -/

/-- The value of the variable lies past the end, in the direction of the step. -/
def Past (stop step v : Int) : Prop := if step < 0 then v < stop else stop < v

instance (stop step v : Int) : Decidable (Past stop step v) :=
  inferInstanceAs (Decidable (if step < 0 then v < stop else stop < v))

/-- A value reached before the end is passed lies between the start and the end. -/
theorem between_of_not_past {start stop step : Int} {k : Nat}
    (h : ¬Past stop step (start + k * step)) :
    if step < 0 then stop ≤ start + k * step ∧ start + k * step ≤ start
    else start ≤ start + k * step ∧ start + k * step ≤ stop := by
  unfold Past at h
  split
  · rename_i hneg
    have hdown : (k : Int) * step ≤ 0 :=
      Int.mul_nonpos_of_nonneg_of_nonpos (Int.natCast_nonneg k) (Int.le_of_lt hneg)
    rw [if_pos hneg] at h
    omega
  · rename_i hpos
    have hup : 0 ≤ (k : Int) * step :=
      Int.mul_nonneg (Int.natCast_nonneg k) (Int.not_lt.1 hpos)
    rw [if_neg hpos] at h
    omega

/-- The bounds of a loop that counts in integers. -/
def Bounds.counting (start : Int32) (stop : Number) (step : Int32) : Bounds :=
  ⟨.integer start, stop, .integer step, decide (step.toInt < 0)⟩

variable {σ : Type} {name : String} {m : MachineOn σ} {start stop step v : Int32} {x : Number}

theorem past_counting :
    (Bounds.counting start x step).past (compare v.toInt stop.toInt) =
      decide (Past stop.toInt step.toInt v.toInt) := by
  unfold Bounds.past Bounds.counting Past
  dsimp only
  by_cases hneg : step.toInt < 0
  · simp [hneg, ← compare_lt_iff_lt]
    rfl
  · simp [hneg, ← compare_gt_iff_gt]
    rfl

theorem compare_zero (n : Int32) :
    (Value.number (.integer n)).compare (.integer 0) = .ok (compare n.toInt 0) := rfl

theorem bounds_counting {b : Bindings} {head : LoopHead}
    (hstart : head.start.bound b = .ok (.integer start)) (hstop : head.stop.bound b = .ok x)
    (hstep : stepOf b head = .ok (.integer step)) (hne : step ≠ 0) :
    bounds b head = .ok (.counting start x step) := by
  have hzero : step.toInt ≠ 0 := fun h => hne (Int32.toInt_inj.1 h)
  unfold bounds Bounds.counting
  simp only [hstart, hstop, hstep, bind, Except.bind, compare_zero]
  rcases Int.lt_or_gt_of_ne hzero with hlt | hgt
  · rw [compare_lt_iff_lt.2 hlt, decide_eq_true hlt]
    rfl
  · rw [compare_gt_iff_gt.2 hgt, decide_eq_false (Int.not_lt.2 (Int.le_of_lt hgt))]
    rfl

/-! ## One round -/

theorem find?_of_bind {b : Bindings} {w : Value} (hm : m.bindings = b.bind name w) :
    m.bindings.find? name = some w := by
  rw [hm, Bindings.find?_bind_self]

theorem rebind_of_bind {b : Bindings} {w : Value} (hm : m.bindings = b.bind name w) (w' : Value) :
    m.bindings.rebind name w' = b.bind name w' := by
  rw [hm, Bindings.rebind_bind]

/-- How the variable compares with the end decides whether there is a round. -/
theorem nextRound_eq {r : Bounds} {w : Value} {order : Ordering}
    (hw : m.bindings.find? name = some w) (hcompare : w.compare (.number r.stop) = .ok order) :
    nextRound name r m = if r.past order then .ok none m
      else (do countIteration; return some w : Exec σ _) m := by
  have horder : (ofExcept (w.compare (.number r.stop)) : Exec σ _) m = .ok order m := by
    rw [hcompare]
    rfl
  unfold nextRound
  rw [bind_of_ok (peek_of_find? hw), bind_of_ok horder]
  split <;> rfl

/-- Only how integers compare with the end decides whether there is a round. -/
theorem nextRound_counting (hv : m.bindings.find? name = some (.integer v))
    (hstop : x.StandsFor stop) :
    nextRound name (.counting start x step) m =
      if Past stop.toInt step.toInt v.toInt then .ok none m
      else (do countIteration; return some (.integer v) : Exec σ _) m := by
  have hcompare : (Value.integer v).compare (.number x) = .ok (compare v.toInt stop.toInt) := by
    simp only [Value.compare, Value.integer, Value.toNumber, bind, Except.bind, hstop v]
    rfl
  have hround := @nextRound_eq σ name m (.counting start x step) _ _ hv hcompare
  simpa only [past_counting, decide_eq_true_eq] using hround

theorem apply_add (v step : Int32) : (Value.integer v).apply .add (.number (.integer step)) =
    Number.ofExact .add (Number.int32? (v.toInt + step.toInt)) := rfl

theorem advance_counting {w : Int32} (hv : m.bindings.find? name = some (.integer v))
    (hw : v.toInt + step.toInt = w.toInt) :
    advance name (.counting start x step) m =
      .ok true { m with bindings := m.bindings.rebind name (.integer w) } := by
  have hnext : (Value.integer v).apply .add (.number (.integer step)) = .ok (.integer w) := by
    rw [apply_add, int32?_eq_some_iff.2 hw.symm]
    rfl
  unfold advance Bounds.counting
  rw [bind_of_ok (peek_of_find? hv)]
  dsimp only
  rw [hnext]
  rfl

/-- Out of the 32-bit integers there is no step: with an integer for an end the loop is over. -/
theorem advance_counting_none (hv : m.bindings.find? name = some (.integer v))
    (hnone : Number.int32? (v.toInt + step.toInt) = none) :
    advance name (.counting start x step) m =
      match x with
      | .integer _ => .ok false m
      | .double _ => .error (.fault (.overflow '+')) m := by
  have hover : (Value.integer v).apply .add (.number (.integer step)) =
      .error (.overflow '+') := by
    rw [apply_add, hnone]
    rfl
  unfold advance Bounds.counting
  rw [bind_of_ok (peek_of_find? hv)]
  dsimp only
  rw [hover]
  cases x <;> rfl

/-- A round is started only before the end is passed. -/
theorem not_past_of_nextRound {w : Value} {m₁ : MachineOn σ}
    (hv : m.bindings.find? name = some (.integer v)) (hstop : x.StandsFor stop)
    (h : nextRound name (.counting start x step) m = .ok (some w) m₁) :
    ¬Past stop.toInt step.toInt v.toInt ∧ m₁.bindings = m.bindings := by
  constructor
  · intro hpast
    rw [nextRound_counting hv hstop, if_pos hpast] at h
    cases h
  · rcases (Ends.of_ok h).1 (ends_nextRound _ hv) with ⟨⟨⟩, -⟩ | ⟨-, rfl, -⟩
    rfl

theorem advance_again {m' : MachineOn σ} (hv : m.bindings.find? name = some (.integer v))
    (h : advance name (.counting start x step) m = .ok true m') :
    ∃ w : Int32, w.toInt = v.toInt + step.toInt ∧
      m' = { m with bindings := m.bindings.rebind name (.integer w) } := by
  cases hw : Number.int32? (v.toInt + step.toInt) with
  | some w =>
    have hsum := int32?_eq_some_iff.1 hw
    rw [advance_counting hv hsum.symm] at h
    cases h
    exact ⟨w, hsum, rfl⟩
  | none =>
    rw [advance_counting_none hv hw] at h
    cases x <;> cases h

/-! ## Many rounds -/

/-- Counting an iteration and running the body do not change what is bound. -/
theorem bindings_round {body : Exec σ Unit} (hbody : Scoped body) {m' : MachineOn σ}
    (h : (countIteration >>= fun _ => body) m = .ok () m') : m'.bindings = m.bindings := by
  obtain ⟨⟨⟩, m₁, hcount, hrun⟩ := ok_of_bind h
  obtain ⟨rfl, -⟩ := (Ends.of_ok hcount).1 (ends_countIteration m)
  exact (Ends.of_ok hrun).1 (hbody _)

/-- As long as the end is not passed, the iteration is counted, the body runs, and the rest of the
rounds follow if there is a step. -/
theorem rounds_counting {body : Exec σ Unit} (more : Nat)
    (hv : m.bindings.find? name = some (.integer v)) (hstop : x.StandsFor stop) :
    rounds name (.counting start x step) body (more + 1) m =
      if Past stop.toInt step.toInt v.toInt then .ok () m
      else ((countIteration >>= fun _ => body) >>= fun _ => do
        if ← advance name (.counting start x step) then
          rounds name (.counting start x step) body more) m := by
  have hnext : nextRound name (.counting start x step) m = _ := nextRound_counting hv hstop
  rw [rounds]
  by_cases hpast : Past stop.toInt step.toInt v.toInt
  · rw [if_pos hpast] at hnext ⊢
    rw [bind_of_ok hnext]
    rfl
  · rw [if_neg hpast] at hnext ⊢
    cases hcount : countIteration m with
    | error h m₁ =>
      rw [bind_of_error (hnext.trans (bind_of_error hcount)), bind_assoc, bind_of_error hcount]
    | ok u m₁ =>
      rw [bind_of_ok (hnext.trans (bind_of_ok hcount)), bind_assoc, bind_of_ok hcount]

end Exec

end TagTemplate
