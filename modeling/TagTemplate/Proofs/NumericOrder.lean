import TagTemplate.Proofs.Counting

/-! The order of values. Every number but NaN has a place on one line, where the integers lie among
the doubles, and values compare as the places of the numbers that they stand for, whichever kinds
meet. So the order is total, and transitive across all kinds. -/

namespace TagTemplate

namespace Number

def isNaN : Number → Bool
  | .double .nan => true
  | _ => false

/-- An integer, or a double that is neither NaN nor an infinity. -/
def isFinite : Number → Bool
  | .integer _ => true
  | .double x => x.isFinite

/-- The place of a number on the line, counted in the least positive double. -/
def place : Number → Int
  | .integer n => n.toInt * Double.unitsOfOne
  | .double x => x.rank

theorem rank_ofInt (n : Int32) : (Double.ofInt n.toInt).rank = n.toInt * Double.unitsOfOne := by
  rw [Double.ofInt_eq (natAbs_toInt_le n)]
  exact Double.signed_natAbs _ _

theorem place_toDouble (x : Number) : x.toDouble.rank = x.place := by
  cases x with
  | integer n => exact rank_ofInt n
  | double x => rfl

theorem toDouble_ne_nan {x : Number} (h : x.isNaN = false) : x.toDouble ≠ .nan := by
  cases x with
  | integer n =>
    show Double.ofInt n.toInt ≠ .nan
    rw [Double.ofInt_eq (natAbs_toInt_le n)]
    exact fun h => nomatch h
  | double x =>
    rintro rfl
    cases h

end Number

theorem Double.compare?_nan_right (x : Double) : x.compare? .nan = none := by
  cases x <;> rfl

theorem Double.compare?_eq_some {x y : Double} (hx : x ≠ .nan) (hy : y ≠ .nan) :
    x.compare? y = some (compare x.rank y.rank) := by
  unfold compare?
  split
  · exact absurd rfl hx
  · exact absurd rfl hy
  · rfl

namespace Number

theorem compare?_eq_some {x y : Number} (hx : x.isNaN = false) (hy : y.isNaN = false) :
    x.compare? y = some (compare x.place y.place) := by
  have hdoubles : x.toDouble.compare? y.toDouble = some (compare x.place y.place) := by
    rw [Double.compare?_eq_some (toDouble_ne_nan hx) (toDouble_ne_nan hy), place_toDouble,
      place_toDouble]
  unfold compare?
  split
  · -- two integers are compared as they are, on a scale of their own
    rename_i a b
    exact congrArg some (Double.compare_mul_pos a.toInt b.toInt Double.unitsOfOne_pos).symm
  · exact hdoubles

theorem eq_nan {x : Number} (h : x.isNaN = true) : x = .double .nan := by
  unfold isNaN at h
  split at h
  · rfl
  · cases h

theorem compare?_nan_left (y : Number) : (Number.double .nan).compare? y = none := rfl

theorem compare?_nan_right (x : Number) : x.compare? (.double .nan) = none := by
  cases x with
  | integer n => exact Double.compare?_nan_right (Double.ofInt n.toInt)
  | double x => exact Double.compare?_nan_right x

end Number

namespace Value

/-- The value stands for a number that is not NaN. -/
def isComparable (v : Value) : Bool :=
  match v.toNumber with
  | .ok n => !n.isNaN
  | .error _ => false

theorem isComparable_iff {v : Value} :
    v.isComparable = true ↔ ∃ n, v.toNumber = .ok n ∧ n.isNaN = false := by
  unfold isComparable
  cases v.toNumber <;> simp

/-- Comparable values compare as the places of their numbers. -/
theorem compare_of_toNumber {v w : Value} {x y : Number} (hv : v.toNumber = .ok x)
    (hx : x.isNaN = false) (hw : w.toNumber = .ok y) (hy : y.isNaN = false) :
    v.compare w = .ok (Ord.compare x.place y.place) := by
  unfold compare
  rw [hv, hw]
  dsimp only [bind, Except.bind]
  rw [Number.compare?_eq_some hx hy]
  rfl

theorem isComparable_of_compare {v w : Value} {order : Ordering} (h : v.compare w = .ok order) :
    v.isComparable = true ∧ w.isComparable = true := by
  unfold compare at h
  obtain ⟨x, hx, h⟩ := bind_eq_ok_iff.1 h
  obtain ⟨y, hy, h⟩ := bind_eq_ok_iff.1 h
  rw [isComparable_iff, isComparable_iff]
  refine ⟨⟨x, hx, ?_⟩, ⟨y, hy, ?_⟩⟩
  · refine Bool.eq_false_iff.2 fun hnan => ?_
    rw [Number.eq_nan hnan, Number.compare?_nan_left] at h
    cases h
  · refine Bool.eq_false_iff.2 fun hnan => ?_
    rw [Number.eq_nan hnan, Number.compare?_nan_right] at h
    cases h

theorem compare_fails_iff (v w : Value) :
    (∃ fault, v.compare w = .error fault) ↔ ¬(v.isComparable = true ∧ w.isComparable = true) := by
  constructor
  · rintro ⟨fault, hfault⟩ ⟨hv, hw⟩
    obtain ⟨x, hx, hxnan⟩ := isComparable_iff.1 hv
    obtain ⟨y, hy, hynan⟩ := isComparable_iff.1 hw
    cases (compare_of_toNumber hx hxnan hy hynan).symm.trans hfault
  · intro hnot
    cases hcompare : v.compare w with
    | ok order => exact absurd (isComparable_of_compare hcompare) hnot
    | error fault => exact ⟨fault, rfl⟩

/-- What three values of one order owe each other: each two have a comparison, which turns around
with them, and two that do not go down make one that does not, and is even only if both are. -/
structure Ordered (a b c : Value) : Prop where
  total : ∃ order, a.compare b = .ok order ∧ b.compare a = .ok order.swap
  equal_self : a.compare a = .ok .eq
  chain : ∀ order order', a.compare b = .ok order → b.compare c = .ok order' →
    order.isLE = true → order'.isLE = true → a.compare c = .ok (order.then order')

end Value

theorem compare_chain {x y z : Int} (h : (compare x y).isLE = true)
    (h' : (compare y z).isLE = true) : compare x z = (compare x y).then (compare y z) := by
  cases horder : compare x y with
  | lt => exact Std.TransCmp.lt_of_lt_of_isLE horder h'
  | eq => exact Std.TransCmp.congr_left horder
  | gt =>
    rw [horder] at h
    cases h

/-- Comparable values of any kinds are in one total order, and a comparison of any two values fails
in both directions or in neither. -/
theorem compare_total_preorder :
    (∀ a b c : Value, a.isComparable = true → b.isComparable = true → c.isComparable = true →
      a.Ordered b c) ∧
    ∀ a b : Value,
      (∃ fault, a.compare b = .error fault) ↔ ∃ fault, b.compare a = .error fault := by
  constructor
  · intro a b c ha hb hc
    obtain ⟨x, hx, hxnan⟩ := Value.isComparable_iff.1 ha
    obtain ⟨y, hy, hynan⟩ := Value.isComparable_iff.1 hb
    obtain ⟨z, hz, hznan⟩ := Value.isComparable_iff.1 hc
    have hab := Value.compare_of_toNumber hx hxnan hy hynan
    have hbc := Value.compare_of_toNumber hy hynan hz hznan
    refine ⟨⟨_, hab, ?_⟩, ?_, ?_⟩
    · rw [Value.compare_of_toNumber hy hynan hx hxnan]
      exact congrArg Except.ok Std.OrientedOrd.eq_swap
    · rw [Value.compare_of_toNumber hx hxnan hx hxnan]
      exact congrArg Except.ok (compare_eq_iff_eq.2 rfl)
    · intro order order' horder horder' hle hle'
      obtain rfl := Except.ok.inj (hab.symm.trans horder)
      obtain rfl := Except.ok.inj (hbc.symm.trans horder')
      rw [Value.compare_of_toNumber hx hxnan hz hznan]
      exact congrArg Except.ok (compare_chain hle hle')
  · intro a b
    rw [Value.compare_fails_iff, Value.compare_fails_iff, and_comm]

/-- Texts that read as doubles on both sides of an integer that is the greatest of its kind. -/
theorem compare_total_preorder_mixed :
    (Value.text "2147483646.5").isComparable = true ∧
      (Value.integer 2147483647).isComparable = true ∧
      (Value.text "2147483647.5").isComparable = true ∧
      (Value.text "2147483646.5").Ordered (.integer 2147483647) (.text "2147483647.5") :=
  have ha : (Value.text "2147483646.5").isComparable = true := by decide +kernel
  have hb : (Value.integer 2147483647).isComparable = true := by decide +kernel
  have hc : (Value.text "2147483647.5").isComparable = true := by decide +kernel
  ⟨ha, hb, hc, compare_total_preorder.1 _ _ _ ha hb hc⟩

end TagTemplate
