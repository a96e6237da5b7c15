import TagTemplate.Proofs.NumericOrder

/-! Sums that are rounded. Rounding never crosses a number that needs none, so a sum with something
positive is never below the other summand, and one with something negative is never above it. A sum
of finite numbers may be infinite but is never NaN. -/

namespace TagTemplate

/-! ## Rounding stays on its side -/

theorem le_roundDiv_mul {w n d : Nat} (hdvd : d ∣ w) (h : w ≤ n) :
    w ≤ roundDiv n d * d :=
  calc w = w / d * d := (Nat.div_mul_cancel hdvd).symm
    _ ≤ n / d * d := Nat.mul_le_mul_right d (Nat.div_le_div_right h)
    _ ≤ roundDiv n d * d := Nat.mul_le_mul_right d (div_le_roundDiv n d)

theorem roundDiv_mul_le {w n d : Nat} (hd : 0 < d) (hdvd : d ∣ w) (h : n ≤ w) :
    roundDiv n d * d ≤ w := by
  obtain ⟨q, rfl⟩ := hdvd
  rw [Nat.mul_comm d q] at h ⊢
  refine Nat.mul_le_mul_right d ?_
  rcases Nat.lt_or_eq_of_le h with hlt | rfl
  · have hdiv : n / d < q := (Nat.div_lt_iff_lt_mul hd).2 hlt
    exact Nat.le_trans (roundDiv_le_div_succ n d) hdiv
  · exact Nat.le_of_eq (roundDiv_mul_self q hd)

namespace Double

theorem nearest_one (n : Nat) : nearest n 1 = roundDiv n (spacing n) * spacing n := by
  unfold nearest
  dsimp only
  rw [Nat.div_one, Nat.one_mul]

theorem spacing_dvd_spacing {m n : Nat} (h : m.log2 ≤ n.log2) : spacing m ∣ spacing n :=
  Nat.pow_dvd_pow 2 (Nat.sub_le_sub_right h 52)

theorem spacing_dvd_two_pow (n : Nat) : spacing n ∣ 2 ^ n.log2 :=
  Nat.pow_dvd_pow 2 (Nat.sub_le n.log2 52)

theorem log2_le_log2 {m n : Nat} (h : m ≤ n) : m.log2 ≤ n.log2 := by
  rcases Nat.eq_zero_or_pos m with rfl | hm
  · exact Nat.zero_le _
  · have hpow : 2 ^ m.log2 ≤ n := Nat.le_trans (Nat.log2_self_le (Nat.ne_of_gt hm)) h
    exact (Nat.le_log2 (Nat.ne_of_gt (Nat.lt_of_lt_of_le hm h))).2 hpow

/-- From above, rounding does not get below a number that needs none. -/
theorem le_nearest {u n : Nat} (hu : Fits u) (h : u ≤ n) : u ≤ nearest n 1 := by
  rw [nearest_one]
  rcases Nat.lt_or_eq_of_le (log2_le_log2 h) with hlog | hlog
  · -- the power of two between them stands for `u`, which need not be a multiple of the gap at `n`
    have hn : n ≠ 0 := by
      rintro rfl
      exact Nat.not_lt_zero _ hlog
    have hpow : u ≤ 2 ^ n.log2 :=
      Nat.le_of_lt (Nat.lt_of_lt_of_le Nat.lt_log2_self (Nat.pow_le_pow_right (by decide) hlog))
    exact Nat.le_trans hpow
      (le_roundDiv_mul (spacing_dvd_two_pow n) (Nat.log2_self_le hn))
  · exact le_roundDiv_mul (Nat.dvd_trans (spacing_dvd_spacing (Nat.le_of_eq hlog.symm)) hu.2) h

/-- From below, rounding does not get above a number that needs none. -/
theorem nearest_le {u n : Nat} (hu : Fits u) (h : n ≤ u) : nearest n 1 ≤ u := by
  rw [nearest_one]
  exact roundDiv_mul_le (spacing_pos n)
    (Nat.dvd_trans (spacing_dvd_spacing (log2_le_log2 h)) hu.2) h

/-! ## Sums of doubles -/

theorem eq_finite {x : Double} (h : x.isFinite = true) :
    ∃ negative units fits, x = .finite negative units fits := by
  cases x with
  | nan => cases h
  | infinity negative => cases h
  | finite negative units fits => exact ⟨negative, units, fits, rfl⟩

theorem rank_ofRatio (negative : Bool) (num den : Nat) :
    (ofRatio negative num den).rank = signed negative (min (nearest num den) ceiling) := by
  unfold ofRatio
  split
  · rename_i hlt
    rw [Nat.min_eq_left (Nat.le_of_lt hlt)]
    rfl
  · rename_i hge
    rw [Nat.min_eq_right (Nat.le_of_not_lt hge)]
    rfl

theorem ofRatio_ne_nan (negative : Bool) (num den : Nat) : ofRatio negative num den ≠ .nan := by
  unfold ofRatio
  intro h
  split at h <;> cases h

/-- The place to which a whole number of units is rounded. -/
def roundedPlace (z : Int) : Int := signed (decide (z < 0)) (min (nearest z.natAbs 1) ceiling)

theorem roundedPlace_zero : roundedPlace 0 = 0 := by
  have hzero : min (nearest 0 1) ceiling = 0 := Nat.le_zero.1
    (Nat.le_trans (Nat.min_le_left _ _) (nearest_le fits_zero (Nat.le_refl 0)))
  unfold roundedPlace
  rw [Int.natAbs_zero, hzero]
  rfl

theorem roundedPlace_neg (z : Int) : roundedPlace (-z) = -roundedPlace z := by
  rcases Int.lt_trichotomy z 0 with hneg | rfl | hpos
  · have hnot : ¬-z < 0 := by omega
    simp only [roundedPlace, signed, hneg, hnot, Int.natAbs_neg, decide_true, decide_false,
      Bool.false_eq_true, if_true, if_false, Int.neg_neg]
  · rw [Int.neg_zero, roundedPlace_zero, Int.neg_zero]
  · have hneg : -z < 0 := by omega
    have hnot : ¬z < 0 := by omega
    simp only [roundedPlace, signed, hneg, hnot, Int.natAbs_neg, decide_true, decide_false,
      Bool.false_eq_true, if_true, if_false]

/-- From above, rounding does not get below the place of a double. -/
theorem le_roundedPlace {negative : Bool} {units : Nat} (fits : Fits units) {z : Int}
    (h : signed negative units ≤ z) : signed negative units ≤ roundedPlace z := by
  by_cases hz : z < 0
  · cases negative with
    | false =>
      have hle : (units : Int) ≤ z := h
      omega
    | true =>
      have hle : -(units : Int) ≤ z := h
      have hround := nearest_le fits (n := z.natAbs) (by omega)
      have hmin := Nat.min_le_left (nearest z.natAbs 1) ceiling
      simp only [roundedPlace, signed, hz, decide_true, if_true]
      omega
  · simp only [roundedPlace, hz, decide_false]
    cases negative with
    | false =>
      have hle : (units : Int) ≤ z := h
      have hround := le_nearest fits (n := z.natAbs) (by omega)
      exact Int.ofNat_le.2 (Nat.le_min.2 ⟨hround, Nat.le_of_lt fits.1⟩)
    | true =>
      simp only [signed, if_true, Bool.false_eq_true, if_false]
      omega

theorem roundedPlace_le {negative : Bool} {units : Nat} (fits : Fits units) {z : Int}
    (h : z ≤ signed negative units) : roundedPlace z ≤ signed negative units := by
  have hflip : signed (!negative) units = -signed negative units := by
    cases negative <;> simp [signed]
  have hneg := @le_roundedPlace (!negative) units fits (-z) (by omega)
  rw [roundedPlace_neg] at hneg
  omega

/-- The sum of two finite doubles is no NaN, and it lies where the exact sum is rounded to. -/
theorem add_finite {x y : Double} (hx : x.isFinite = true) (hy : y.isFinite = true) :
    x.add y ≠ .nan ∧ (x.add y).rank = roundedPlace (x.rank + y.rank) := by
  obtain ⟨s, m, _, rfl⟩ := eq_finite hx
  obtain ⟨t, n, _, rfl⟩ := eq_finite hy
  show (if signed s m + signed t n = 0 then finite (s && t) 0 fits_zero
    else ofRatio _ _ _) ≠ .nan ∧ (if signed s m + signed t n = 0 then _ else _ : Double).rank =
      roundedPlace (signed s m + signed t n)
  split
  · rename_i hsum
    rw [hsum, roundedPlace_zero]
    constructor
    · intro h
      cases h
    · cases s && t <;> rfl
  · exact ⟨ofRatio_ne_nan _ _ _, rank_ofRatio _ _ _⟩

theorem rank_le_add {x y : Double} (hx : x.isFinite = true) (hy : y.isFinite = true)
    (hsign : 0 ≤ y.rank) : x.rank ≤ (x.add y).rank := by
  rw [(add_finite hx hy).2]
  obtain ⟨s, m, fits, rfl⟩ := eq_finite hx
  exact le_roundedPlace fits (Int.le_add_of_nonneg_right hsign)

theorem add_le_rank {x y : Double} (hx : x.isFinite = true) (hy : y.isFinite = true)
    (hsign : y.rank ≤ 0) : (x.add y).rank ≤ x.rank := by
  rw [(add_finite hx hy).2]
  obtain ⟨s, m, fits, rfl⟩ := eq_finite hx
  have hsum : (finite s m fits).rank + y.rank ≤ (finite s m fits).rank := by omega
  exact roundedPlace_le fits hsum

/-- The infinities lie outside of all finite numbers. -/
theorem rank_lt_ceiling {x : Double} (hx : x.isFinite = true) :
    -(ceiling : Int) < x.rank ∧ x.rank < ceiling := by
  obtain ⟨s, m, fits, rfl⟩ := eq_finite hx
  have hlt := fits.1
  unfold rank signed
  dsimp only
  split <;> omega

theorem isFinite_of_rank {x : Double} (hx : x ≠ .nan) (hlow : -(ceiling : Int) < x.rank)
    (hhigh : x.rank < ceiling) : x.isFinite = true := by
  cases x with
  | nan => exact absurd rfl hx
  | infinity negative =>
    cases negative with
    | false => exact absurd hhigh (Int.lt_irrefl _)
    | true => exact absurd hlow (Int.lt_irrefl _)
  | finite s m fits => rfl

end Double

/-! ## Sums of numbers -/

namespace Number

theorem isFinite_toDouble {x : Number} (h : x.isFinite = true) : x.toDouble.isFinite = true := by
  cases x with
  | integer n =>
    show (Double.ofInt n.toInt).isFinite = true
    rw [Double.ofInt_eq (natAbs_toInt_le n)]
    rfl
  | double x => exact h

theorem isNaN_of_isFinite {x : Number} (h : x.isFinite = true) : x.isNaN = false := by
  refine Bool.eq_false_iff.2 fun hnan => ?_
  rw [eq_nan hnan] at h
  cases h

/-- What lies between finite numbers is finite. -/
theorem isFinite_of_between {low x high : Number} (hlow : low.isFinite = true)
    (hx : x.isNaN = false) (hhigh : high.isFinite = true) (h : low.place ≤ x.place)
    (h' : x.place ≤ high.place) : x.isFinite = true := by
  cases x with
  | integer n => rfl
  | double x =>
    have hleft := (Double.rank_lt_ceiling (isFinite_toDouble hlow)).1
    have hright := (Double.rank_lt_ceiling (isFinite_toDouble hhigh)).2
    rw [place_toDouble] at hleft hright
    exact Double.isFinite_of_rank (toDouble_ne_nan hx) (Int.lt_of_lt_of_le hleft h)
      (Int.lt_of_le_of_lt h' hright)

/-- A sum of finite numbers is no NaN, and lies on that side of one summand on which the sign of the
other one puts it. -/
theorem add_of_isFinite {x y z : Number} (hx : x.isFinite = true) (hy : y.isFinite = true)
    (h : x.add y = .ok z) : z.isNaN = false ∧ (0 ≤ y.place → x.place ≤ z.place) ∧
      (y.place ≤ 0 → z.place ≤ x.place) := by
  have hdx := isFinite_toDouble hx
  have hdy := isFinite_toDouble hy
  unfold add at h
  split at h
  · rename_i a b
    cases hsum : int32? (a.toInt + b.toInt) with
    | none => rw [hsum] at h; cases h
    | some n =>
      rw [hsum] at h
      cases h
      have hplace : (integer n).place = (integer a).place + (integer b).place := by
        simp only [place, int32?_eq_some_iff.1 hsum, Int.add_mul]
      refine ⟨rfl, fun hsign => ?_, fun hsign => ?_⟩
      · exact hplace ▸ Int.le_add_of_nonneg_right hsign
      · exact hplace ▸ (by omega)
  · cases h
    refine ⟨?_, fun hsign => ?_, fun hsign => ?_⟩
    · refine Bool.eq_false_iff.2 fun hnan => ?_
      exact (Double.add_finite hdx hdy).1 (Number.double.inj (eq_nan hnan))
    · rw [← place_toDouble x]
      exact Double.rank_le_add hdx hdy (by rwa [place_toDouble])
    · rw [← place_toDouble x]
      exact Double.add_le_rank hdx hdy (by rwa [place_toDouble])

end Number

end TagTemplate
