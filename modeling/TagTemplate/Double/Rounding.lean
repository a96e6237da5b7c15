import TagTemplate.Double.Basic

/-! Rounding to the nearest binary64 number, halves to even. The spacing is read off the whole
part of the exact value; below `2 ^ 53` units it is one unit, so small numbers need no case of
their own. -/

namespace TagTemplate

/-- The nearest whole number to a quotient, a half going to the even neighbour. -/
def roundDiv (num den : Nat) : Nat :=
  let down := num / den
  match compare (2 * (num % den)) den with
  | .lt => down
  | .gt => down + 1
  | .eq => down + down % 2

theorem div_le_roundDiv (num den : Nat) : num / den ≤ roundDiv num den := by
  unfold roundDiv; dsimp only; split <;> omega

theorem roundDiv_le_div_succ (num den : Nat) : roundDiv num den ≤ num / den + 1 := by
  unfold roundDiv; dsimp only; split <;> omega

namespace Double

/-- The nearest magnitude to `num / den` units, whatever its size. -/
def nearest (num den : Nat) : Nat :=
  let gap := spacing (num / den)
  roundDiv num (den * gap) * gap

theorem significand_le (num den : Nat) :
    roundDiv num (den * spacing (num / den)) ≤ 2 ^ 53 := by
  refine Nat.le_trans (roundDiv_le_div_succ _ _) (Nat.succ_le_of_lt ?_)
  rw [← Nat.div_div_eq_div_mul]
  generalize num / den = whole
  rw [spacing, Nat.div_lt_iff_lt_mul (Nat.two_pow_pos _), ← Nat.pow_add]
  exact Nat.lt_of_lt_of_le Nat.lt_log2_self (Nat.pow_le_pow_right (by decide) (by omega))

theorem spacing_dvd_nearest (num den : Nat) : spacing (nearest num den) ∣ nearest num den :=
  spacing_dvd_mul _ (significand_le num den)

/-- The nearest number to `num / den` units; past the largest one it is infinite. -/
def ofRatio (negative : Bool) (num den : Nat) : Double :=
  if h : nearest num den < ceiling then
    .finite negative (nearest num den) ⟨h, spacing_dvd_nearest num den⟩
  else .infinity negative

end Double

end TagTemplate
