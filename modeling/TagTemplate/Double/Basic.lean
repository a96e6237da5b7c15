/-! Binary64 numbers as exact values. A finite one is a sign and a whole number of units of
`2 ^ -1074`, the least positive number, so order, sums and products are arithmetic on integers.
The two zeros differ; there is one NaN. -/

namespace TagTemplate

/-- Powers are those of the core library, also where algebra brings its own. -/
@[default_instance 20000]
instance (priority := 1100) corePow {α : Type} [NatPow α] : Pow α Nat := instPowNat

namespace Double

/-- The distance between neighbouring numbers near a magnitude: 53 bits are significant. -/
def spacing (units : Nat) : Nat := 2 ^ (units.log2 - 52)

def ceilingLog : Nat := 2098

/-- The least power of two above every finite magnitude. -/
def ceiling : Nat := 2 ^ ceilingLog

/-- The magnitude of `1.0`. -/
def unitsOfOne : Nat := 2 ^ 1074

/-- The magnitudes that binary64 holds exactly. -/
def Fits (units : Nat) : Prop := units < ceiling ∧ spacing units ∣ units

instance : DecidablePred Fits := fun units =>
  inferInstanceAs (Decidable (units < ceiling ∧ spacing units ∣ units))

theorem spacing_dvd_mul {q : Nat} (s : Nat) (h : q ≤ 2 ^ 53) :
    spacing (q * 2 ^ s) ∣ q * 2 ^ s := by
  rcases Nat.lt_or_eq_of_le h with hlt | rfl
  · rcases Nat.eq_zero_or_pos q with rfl | hq
    · simp
    · have hne : q * 2 ^ s ≠ 0 := Nat.ne_of_gt (Nat.mul_pos hq (Nat.two_pow_pos s))
      have hlog : (q * 2 ^ s).log2 < 53 + s := by
        rw [Nat.log2_lt hne, Nat.pow_add]
        exact Nat.mul_lt_mul_of_pos_right hlt (Nat.two_pow_pos s)
      exact Nat.dvd_trans (Nat.pow_dvd_pow 2 (by omega)) (Nat.dvd_mul_left _ _)
  · rw [← Nat.pow_add, spacing, Nat.log2_two_pow]
    exact Nat.pow_dvd_pow 2 (by omega)

theorem ceiling_pos : 0 < ceiling := Nat.two_pow_pos ceilingLog

theorem lt_ceiling {units k : Nat} (h : units < 2 ^ k) (hk : k ≤ ceilingLog) : units < ceiling :=
  Nat.lt_of_lt_of_le h (Nat.pow_le_pow_right (by decide) hk)

theorem fits_zero : Fits 0 := ⟨ceiling_pos, Nat.dvd_zero _⟩

end Double

/-- A binary64 number; `units` counts multiples of `2 ^ -1074`. -/
inductive Double where
  /-- Arithmetic leaves the sign of a NaN open; here it is taken as plus. Only decimal patterns look
  at it, and format `inf - inf` without a minus, where the arithmetic of a machine may give one. -/
  | nan
  | infinity (negative : Bool)
  | finite (negative : Bool) (units : Nat) (fits : Double.Fits units)
deriving DecidableEq

namespace Double

def zero : Double := .finite false 0 fits_zero

instance : Inhabited Double := ⟨zero⟩

def one : Double := .finite false unitsOfOne (by decide +kernel)

def isFinite : Double → Bool
  | .finite .. => true
  | _ => false

def isZero : Double → Bool
  | .finite _ units _ => units == 0
  | _ => false

def isNegative : Double → Bool
  | .nan => false
  | .infinity negative => negative
  | .finite negative _ _ => negative

def neg : Double → Double
  | .nan => .nan
  | .infinity negative => .infinity !negative
  | .finite negative units fits => .finite (!negative) units fits

/-- A magnitude with its sign. -/
def signed (negative : Bool) (units : Nat) : Int := if negative then -units else units

/-- The place of a number on the line, in units; the infinities lie just outside. -/
def rank : Double → Int
  | .nan => 0
  | .infinity negative => signed negative ceiling
  | .finite negative units _ => signed negative units

/-- The numeric order: the two zeros are equal, NaN is comparable to nothing. -/
def compare? : Double → Double → Option Ordering
  | .nan, _ => none
  | _, .nan => none
  | x, y => some (compare x.rank y.rank)

end Double

end TagTemplate
