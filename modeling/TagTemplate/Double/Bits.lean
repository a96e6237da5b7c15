import TagTemplate.Double.Arithmetic

/-! The 64-bit encoding: sign, eleven bits of exponent, 52 of fraction. It is needed at the edge
of the library only: for numbers that come and go as bits, and for the sine. -/

namespace TagTemplate.Double

theorem fits_of_fields {exponent fraction : Nat} (he : exponent < 2047)
    (hf : fraction < 2 ^ 52) : Fits ((2 ^ 52 + fraction) * 2 ^ (exponent - 1)) := by
  have h : (2 ^ 52 + fraction) * 2 ^ (exponent - 1) < 2 ^ (53 + (exponent - 1)) := by
    rw [Nat.pow_add]
    exact Nat.mul_lt_mul_of_pos_right (by omega) (Nat.two_pow_pos _)
  exact ⟨lt_ceiling h (by unfold ceilingLog; omega), spacing_dvd_mul _ (by omega)⟩

theorem fits_of_fraction {fraction : Nat} (hf : fraction < 2 ^ 52) : Fits fraction := by
  have h : spacing (fraction * 2 ^ 0) ∣ fraction * 2 ^ 0 := spacing_dvd_mul 0 (by omega)
  rw [Nat.pow_zero, Nat.mul_one] at h
  exact ⟨lt_ceiling hf (by decide), h⟩

/-- A zero exponent field scales like a one but has no leading bit; the last exponent holds the
infinities and every NaN. -/
def ofBits (bits : UInt64) : Double :=
  let negative := bits.toNat / 2 ^ 63 % 2 == 1
  let exponent := bits.toNat / 2 ^ 52 % 2 ^ 11
  let fraction := bits.toNat % 2 ^ 52
  have hf : fraction < 2 ^ 52 := Nat.mod_lt _ (by decide)
  if he : exponent < 2047 then
    if exponent = 0 then .finite negative fraction (fits_of_fraction hf)
    else .finite negative ((2 ^ 52 + fraction) * 2 ^ (exponent - 1)) (fits_of_fields he hf)
  else if fraction = 0 then .infinity negative
  else .nan

def toBits (x : Double) : UInt64 :=
  let sign := if x.isNegative then 2 ^ 63 else 0
  match x with
  | .nan => 0x7FF8000000000000
  | .infinity _ => .ofNat (sign + 0x7FF0000000000000)
  | .finite _ units _ =>
    let shift := units.log2 - 52
    .ofNat (sign + shift * 2 ^ 52 + units / 2 ^ shift)

/-- One degree in radians, rounded. -/
def radiansPerDegree : Double := ofBits 0x3F91DF46A2529D39

/-- The sine of an angle in degrees. -/
def sinDegrees (x : Double) : Double :=
  ofBits (Float.sin (Float.ofBits (mul x radiansPerDegree).toBits)).toBits

end TagTemplate.Double
