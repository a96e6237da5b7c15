import Mathlib.Algebra.Order.Ring.Int
import TagTemplate.Proofs.NumberText

/-! Arithmetic on two integers: the exact result where it is a 32-bit integer, and an overflow where
it is not. A power is a chain of products that all have to fit; they do whenever the power itself
does, since no square is taken that does not go into it. -/

namespace TagTemplate

namespace Number

/-- The 32-bit integers. -/
def InRange (n : Int) : Prop := Int32.minValue.toInt ≤ n ∧ n ≤ Int32.maxValue.toInt

instance : DecidablePred InRange := fun n =>
  inferInstanceAs (Decidable (Int32.minValue.toInt ≤ n ∧ n ≤ Int32.maxValue.toInt))

/-- The result is the integer `n`, or an overflow of the operation where `n` is out of range. -/
def Exact (op : Operation) (n : Int) (result : Except Fault Number) : Prop :=
  (InRange n ∧ ∃ c : Int32, c.toInt = n ∧ result = .ok (.integer c)) ∨
    (¬InRange n ∧ result = .error (.overflow op.symbol))

theorem inRange_iff {n : Int} : InRange n ↔ -2147483648 ≤ n ∧ n < 2147483648 :=
  and_congr_right fun _ => Int.le_iff_lt_add_one

theorem inRange_toInt (c : Int32) : InRange c.toInt := inRange_iff.2 ⟨c.le_toInt, c.toInt_lt⟩

theorem int32?_eq_none_iff {n : Int} : int32? n = none ↔ ¬InRange n := by
  rw [inRange_iff, int32?]
  split <;> simp [*]

theorem exact_ofExact (op : Operation) (n : Int) : Exact op n (ofExact op (int32? n)) := by
  cases h : int32? n with
  | some c =>
    have hc := int32?_eq_some_iff.1 h
    exact .inl ⟨hc ▸ inRange_toInt c, c, hc, rfl⟩
  | none => exact .inr ⟨int32?_eq_none_iff.1 h, rfl⟩

/-! ## Powers -/

/-- A product that does not fit is not brought back by a positive factor. -/
theorem not_inRange_mul {p q : Int} (hp : ¬InRange p) (hq : 0 < q) : ¬InRange (p * q) := by
  rw [inRange_iff] at hp ⊢
  rintro ⟨hlow, hhigh⟩
  by_cases hneg : p < 0
  · have : p * q ≤ p * 1 := Int.mul_le_mul_of_nonpos_left (Int.le_of_lt hneg) hq
    omega
  · have : p * 1 ≤ p * q := Int.mul_le_mul_of_nonneg_left hq (Int.not_lt.1 hneg)
    omega

/-- The bound of the negative integers is no square, so a square that does not fit is above it. -/
theorem lt_square {b : Int} (h : ¬InRange (b * b)) : 2147483648 < b * b := by
  have hroot : 46341 ≤ b.natAbs := by
    refine Nat.not_lt.1 fun hlt => h (inRange_iff.2 ?_)
    have hsquare : b.natAbs * b.natAbs ≤ 46340 * 46340 :=
      Nat.mul_le_mul (Nat.le_of_lt_succ hlt) (Nat.le_of_lt_succ hlt)
    rw [← Int.natAbs_mul_self]
    omega
  have hsquare : 46341 * 46341 ≤ b.natAbs * b.natAbs := Nat.mul_le_mul hroot hroot
  rw [← Int.natAbs_mul_self]
  omega

/-- A power of a square that does not fit does not fit, with either sign. -/
theorem not_inRange_mul_pow {p b : Int} {m : Nat} (hp : p ≠ 0) (hb : ¬InRange (b * b))
    (hm : m ≠ 0) : ¬InRange (p * (b * b) ^ m) := by
  have hlt := lt_square hb
  obtain ⟨k, rfl⟩ := Nat.exists_eq_succ_of_ne_zero hm
  have hrest : 0 < (b * b) ^ k := Int.pow_pos (by omega)
  rw [Int.pow_succ', ← Int.mul_assoc]
  refine not_inRange_mul ?_ hrest
  rw [inRange_iff]
  rintro ⟨hlow, hhigh⟩
  have hsquare : 0 ≤ b * b := by omega
  rcases Int.lt_or_gt_of_ne hp with hneg | hpos
  · have : p * (b * b) ≤ -1 * (b * b) := Int.mul_le_mul_of_nonneg_right (by omega) hsquare
    omega
  · have : 1 * (b * b) ≤ p * (b * b) := Int.mul_le_mul_of_nonneg_right (by omega) hsquare
    omega

theorem pow_of_even (b : Int) {n : Nat} (h : n % 2 = 0) : b ^ n = (b * b) ^ (n / 2) := by
  have hn : n = 2 * (n / 2) := by omega
  calc b ^ n = b ^ (2 * (n / 2)) := congrArg (b ^ ·) hn
    _ = (b ^ 2) ^ (n / 2) := Int.pow_mul
    _ = (b * b) ^ (n / 2) := by rw [Int.pow_succ, Int.pow_succ, Int.pow_zero, Int.one_mul]

theorem pow_of_odd (b : Int) {n : Nat} (h : n % 2 = 1) : b ^ n = b * (b * b) ^ (n / 2) := by
  obtain ⟨k, rfl⟩ : ∃ k, n = k + 1 := ⟨n - 1, by omega⟩
  have hhalf : (k + 1) / 2 = k / 2 := by omega
  rw [Int.pow_succ', pow_of_even b (by omega), hhalf]

/-- The square behind a bit, if the rounds that follow it are known. A zero must have been gathered
from a zero: else a square could overflow where the product with it fits. -/
theorem afterBit_eq {acc base : Int32} {m : Nat} (hacc : acc.toInt ≠ 0 ∨ base.toInt = 0)
    (hrounds : ∀ square : Int32, acc.toInt ≠ 0 ∨ square.toInt = 0 → m ≠ 0 →
      int32MulPow? acc square m = int32? (acc.toInt * square.toInt ^ m)) :
    (if m = 0 then some acc else int32Mul? base base >>= fun square => int32MulPow? acc square m) =
      int32? (acc.toInt * (base.toInt * base.toInt) ^ m) := by
  split
  · rename_i hlast
    rw [hlast, Int.pow_zero, Int.mul_one, int32?_toInt]
  · rename_i hmore
    unfold int32Mul?
    cases hsquare : int32? (base.toInt * base.toInt) with
    | none =>
      have hout := int32?_eq_none_iff.1 hsquare
      have hbase : base.toInt ≠ 0 := fun hzero => hout (by rw [hzero]; decide)
      have hne := hacc.resolve_right hbase
      exact (int32?_eq_none_iff.2 (not_inRange_mul_pow hne hout hmore)).symm
    | some square =>
      have hval := int32?_eq_some_iff.1 hsquare
      have hzero : acc.toInt ≠ 0 ∨ square.toInt = 0 :=
        hacc.imp_right fun hzero => by rw [hval, hzero]; rfl
      rw [← hval]
      exact hrounds square hzero hmore

/-- What is gathered so far, times the power that is left, is the same in every round. -/
theorem int32MulPow?_eq {acc base : Int32} (hacc : acc.toInt ≠ 0 ∨ base.toInt = 0) (n : Nat) :
    int32MulPow? acc base n = int32? (acc.toInt * base.toInt ^ n) := by
  induction n using Nat.strongRecOn generalizing acc base with
  | ind n ih =>
    have hrounds {acc : Int32} (hacc : acc.toInt ≠ 0 ∨ base.toInt = 0) :=
      afterBit_eq hacc fun square hzero hmore => ih (n / 2) (by omega) hzero
    rw [int32MulPow?]
    by_cases hodd : n % 2 = 1
    · rw [pow_of_odd _ hodd, ← Int.mul_assoc, if_pos hodd]
      unfold int32Mul?
      cases hfirst : int32? (acc.toInt * base.toInt) with
      | none =>
        have hout := int32?_eq_none_iff.1 hfirst
        have hbase : base.toInt ≠ 0 := fun hzero => hout (by rw [hzero, Int.mul_zero]; decide)
        have hpos : 0 < (base.toInt * base.toInt) ^ (n / 2) :=
          Int.pow_pos (mul_self_pos.2 hbase)
        exact (int32?_eq_none_iff.2 (not_inRange_mul hout hpos)).symm
      | some first =>
        have hval := int32?_eq_some_iff.1 hfirst
        rw [← hval]
        refine hrounds ?_
        rw [hval]
        rcases hacc with hne | hzero
        · exact or_iff_not_imp_right.2 fun hbase => Int.mul_ne_zero hne hbase
        · exact .inr hzero
    · rw [pow_of_even _ (Nat.mod_two_ne_one.1 hodd), if_neg hodd]
      exact hrounds hacc

theorem int32Pow?_eq (base : Int32) (n : Nat) : int32Pow? base n = int32? (base.toInt ^ n) := by
  have hone : (1 : Int32).toInt = 1 := rfl
  rw [int32Pow?, int32MulPow?_eq (.inl (by decide)), hone, Int.one_mul]

end Number

open Number (Exact)

namespace Value

variable {a b : Int32}

theorem apply_divide_zero : (integer a).apply .divide (integer 0) = .error .divisionByZero := rfl

theorem exact_divide (hb : b ≠ 0) :
    Exact .divide (a.toInt.tdiv b.toInt) ((integer a).apply .divide (integer b)) := by
  have hdiv : (integer a).apply .divide (integer b) =
      Number.ofExact .divide (Number.int32? (a.toInt.tdiv b.toInt)) := by
    show Number.div (.integer a) (.integer b) = _
    rw [Number.div, if_neg (by simpa [Number.isZero] using hb)]
  rw [hdiv]
  exact Number.exact_ofExact _ _

/-- The one quotient of two 32-bit integers that is none of them. -/
theorem inRange_tdiv (hb : b ≠ 0) :
    Number.InRange (a.toInt.tdiv b.toInt) ↔ ¬(a = Int32.minValue ∧ b = -1) := by
  have hlow := a.le_toInt
  have hhigh := a.toInt_lt
  have hzero : b.toInt ≠ 0 := fun h => hb (Int32.toInt_inj.1 h)
  rw [← Int32.toInt_inj, ← Int32.toInt_inj, Number.inRange_iff]
  change _ ↔ ¬(a.toInt = -2147483648 ∧ b.toInt = -1)
  by_cases hneg : b.toInt = -1
  · rw [hneg, Int.tdiv_neg, Int.tdiv_one]
    omega
  · refine iff_of_true ?_ fun h => hneg h.2
    by_cases hone : b.toInt = 1
    · rw [hone, Int.tdiv_one]
      omega
    · have habs : (a.toInt.tdiv b.toInt).natAbs = a.toInt.natAbs / b.toInt.natAbs :=
        Int.natAbs_tdiv a.toInt b.toInt
      have hhalf : a.toInt.natAbs / b.toInt.natAbs ≤ a.toInt.natAbs / 2 :=
        Nat.div_le_div_left (by omega) (by decide)
      omega

theorem apply_power_negative (hb : b < 0) : (integer a).apply .power (integer b) =
    .error (.invalidExponent (integer b).display) := by
  show (if b < 0 then _ else _) = _
  rw [if_pos hb]
  rfl

theorem exact_power (hb : ¬b < 0) :
    Exact .power (a.toInt ^ b.toInt.toNat) ((integer a).apply .power (integer b)) := by
  have hpow : (integer a).apply .power (integer b) =
      Number.ofExact .power (Number.int32Pow? a b.toInt.toNat) := by
    show (if b < 0 then _ else _) = _
    rw [if_neg hb]
    rfl
  rw [hpow, Number.int32Pow?_eq]
  exact Number.exact_ofExact _ _

theorem apply_divide_overflow : (integer a).apply .divide (integer b) = .error (.overflow '/') ↔
    a = Int32.minValue ∧ b = -1 := by
  by_cases hb : b = 0
  · rw [hb, apply_divide_zero]
    constructor
    · rintro ⟨⟩
    · rintro ⟨-, ⟨⟩⟩
  · rcases exact_divide hb with ⟨hin, c, -, hc⟩ | ⟨hout, hover⟩
    · rw [inRange_tdiv hb] at hin
      rw [hc]
      exact iff_of_false (by rintro ⟨⟩) hin
    · rw [inRange_tdiv hb, not_not] at hout
      exact iff_of_true hover hout

end Value

/-- An operation on two integers never wraps. A sum, a difference and a product are exact or an
overflow. A quotient is truncated towards zero; there is none by zero, and one alone overflows. A
power needs an exponent from zero up and is exact or an overflow, whatever the exponent; with the
exponent zero it is one. -/
theorem integers_exact_or_reported (a b : Int32) :
    Exact .add (a.toInt + b.toInt) ((Value.integer a).apply .add (.integer b)) ∧
    Exact .subtract (a.toInt - b.toInt) ((Value.integer a).apply .subtract (.integer b)) ∧
    Exact .multiply (a.toInt * b.toInt) ((Value.integer a).apply .multiply (.integer b)) ∧
    (if b = 0 then (Value.integer a).apply .divide (.integer b) = .error .divisionByZero
      else Exact .divide (a.toInt.tdiv b.toInt) ((Value.integer a).apply .divide (.integer b))) ∧
    ((Value.integer a).apply .divide (.integer b) = .error (.overflow '/') ↔
      a = Int32.minValue ∧ b = -1) ∧
    (if b < 0 then (Value.integer a).apply .power (.integer b) =
        .error (.invalidExponent (Value.integer b).display)
      else Exact .power (a.toInt ^ b.toInt.toNat) ((Value.integer a).apply .power (.integer b))) ∧
    (Value.integer a).apply .power (.integer 0) = .ok (.integer 1) := by
  refine ⟨Number.exact_ofExact _ _, Number.exact_ofExact _ _, Number.exact_ofExact _ _, ?_,
    Value.apply_divide_overflow, ?_, ?_⟩
  · split
    · rename_i hb
      rw [hb]
      exact Value.apply_divide_zero
    · rename_i hb
      exact Value.exact_divide hb
  · split
    · rename_i hb
      exact Value.apply_power_negative hb
    · rename_i hb
      exact Value.exact_power hb
  · show Number.ofExact .power (Number.int32Pow? a 0) = _
    rw [Number.int32Pow?_eq, Int.pow_zero]
    rfl

/-- The squares on the way to the least integer all fit. -/
example : (Value.integer (-2)).apply .power (.integer 31) = .ok (.integer Int32.minValue) := by
  cbv

end TagTemplate
