import TagTemplate.Builtin
import TagTemplate.Proofs.NumberText

/-! What a decimal pattern makes of a number. The number is rounded to the places that the pattern
has room for, and then only zeros come and go: optional ones are dropped at both ends, mandatory
ones filled in. So the digits that are left still write the rounded number. -/

namespace TagTemplate

/-! ## Rounding -/

/-- No whole number is nearer to `num / den` than `n`, and an odd one is not even as near as another
one. -/
structure Nearest (num den n : Nat) : Prop where
  near : ∀ k : Nat, ((num : Int) - n * den).natAbs ≤ ((num : Int) - k * den).natAbs
  tie : ∀ k : Nat, k ≠ n → ((num : Int) - k * den).natAbs = ((num : Int) - n * den).natAbs →
    n % 2 = 0

theorem roundDiv_cases (num den : Nat) :
    (roundDiv num den = num / den ∧ 2 * (num % den) < den) ∨
      (roundDiv num den = num / den + 1 ∧ den < 2 * (num % den)) ∨
      (roundDiv num den = num / den + num / den % 2 ∧ 2 * (num % den) = den) := by
  unfold roundDiv
  dsimp only
  split
  · rename_i h
    exact .inl ⟨rfl, Nat.compare_eq_lt.1 h⟩
  · rename_i h
    exact .inr (.inl ⟨rfl, Nat.compare_eq_gt.1 h⟩)
  · rename_i h
    exact .inr (.inr ⟨rfl, Nat.compare_eq_eq.1 h⟩)

/-- Different multiples are at least one step apart. -/
theorem mul_add_le_of_lt (den : Nat) {k q : Nat} (h : k < q) : k * den + den ≤ q * den :=
  Nat.succ_mul k den ▸ Nat.mul_le_mul_right den h

theorem mul_le_or_add_le (k q den : Nat) : k * den ≤ q * den ∨ q * den + den ≤ k * den := by
  rcases Nat.lt_or_ge q k with h | h
  · exact .inr (mul_add_le_of_lt den h)
  · exact .inl (Nat.mul_le_mul_right den h)

theorem nearest_roundDiv (num : Nat) {den : Nat} (hden : 0 < den) :
    Nearest num den (roundDiv num den) := by
  have hsplit : num = num / den * den + num % den := (Nat.div_add_mod' num den).symm
  have hmod : num % den < den := Nat.mod_lt num hden
  have hnext : (num / den + 1) * den = num / den * den + den := Nat.succ_mul _ _
  constructor
  · intro k
    have hside := mul_le_or_add_le k (num / den) den
    simp only [← Int.natCast_mul]
    rcases roundDiv_cases num den with ⟨hn, hhalf⟩ | ⟨hn, hhalf⟩ | ⟨hn, hhalf⟩
    · rw [hn]; omega
    · rw [hn]; omega
    · rw [hn]
      rcases Nat.mod_two_eq_zero_or_one (num / den) with heven | hodd
      · rw [heven, Nat.add_zero]; omega
      · rw [hodd]; omega
  · intro k hk htie
    have hside : k * den + den ≤ roundDiv num den * den ∨ roundDiv num den * den + den ≤ k * den :=
      (Nat.lt_or_gt_of_ne hk).imp (mul_add_le_of_lt den) (mul_add_le_of_lt den)
    simp only [← Int.natCast_mul] at htie
    rcases roundDiv_cases num den with ⟨hn, hhalf⟩ | ⟨hn, hhalf⟩ | ⟨hn, -⟩
    · rw [hn] at hside htie; omega
    · rw [hn] at hside htie; omega
    · rw [hn]; omega

/-! ## Zeros at the ends of digits -/

namespace Numeral

theorem value_zeros_append (k : Nat) (digits : List Char) :
    value (List.replicate k '0' ++ digits) = value digits := by
  rw [value, Nat.ofDigitChars_append, Nat.ofDigitChars_replicate_zero, Nat.mul_zero, value]

theorem replicate_takeWhile (digits : List Char) :
    digits.takeWhile (· == '0') = List.replicate (digits.takeWhile (· == '0')).length '0' :=
  List.eq_replicate_of_mem fun c hc => by simpa using List.mem_takeWhile_imp hc

theorem value_dropWhile_append (digits rest : List Char) :
    value (digits.dropWhile (· == '0') ++ rest) = value (digits ++ rest) := by
  conv => rhs; rw [← @List.takeWhile_append_dropWhile _ (· == '0') digits, replicate_takeWhile]
  rw [List.append_assoc, value_zeros_append]

theorem head?_dropWhile_ne (digits : List Char) :
    (digits.dropWhile (· == '0')).head? ≠ some '0' := by
  intro h
  have hnot := List.head?_dropWhile_not (· == '0') digits
  rw [h] at hnot
  cases hnot

theorem getLast?_trimTrailingZeros_ne (digits : List Char) :
    (trimTrailingZeros digits).getLast? ≠ some '0' := by
  rw [trimTrailingZeros, List.getLast?_reverse]
  exact head?_dropWhile_ne digits.reverse

theorem le_ofDigitChars (digits : List Char) (init : Nat) :
    init ≤ Nat.ofDigitChars 10 digits init := by
  induction digits generalizing init with
  | nil => exact Nat.le_refl _
  | cons c digits ih =>
    rw [Nat.ofDigitChars_cons]
    refine Nat.le_trans ?_ (ih _)
    omega

/-- Digits write zero only if they are all zeros. -/
theorem value_eq_zero_iff {digits : List Char} (hdigits : ∀ c ∈ digits, c.isDigit = true) :
    value digits = 0 ↔ ∀ c ∈ digits, c = '0' := by
  constructor
  · intro hvalue c hc
    obtain ⟨before, after, rfl⟩ := List.append_of_mem hc
    obtain ⟨hlow, -⟩ := Scanner.toNat_of_isDigit (hdigits c hc)
    rw [value, Nat.ofDigitChars_append, Nat.ofDigitChars_cons] at hvalue
    have hle := le_ofDigitChars after
      (10 * Nat.ofDigitChars 10 before 0 + (c.toNat - '0'.toNat))
    have hzero : '0'.toNat = 48 := rfl
    exact Char.toNat_inj.1 (by omega)
  · intro hzeros
    rw [List.eq_replicate_of_mem hzeros, value, Nat.ofDigitChars_replicate_zero, Nat.mul_zero]

end Numeral

/-! ## Patterns -/

namespace Pattern

/-- The positions of a pattern before and behind its point; without a point they are all before. -/
inductive Splits : List Char → List Char → List Char → Prop
  | whole {before : List Char} : '.' ∉ before → Splits before before []
  | pointed {before after : List Char} : '.' ∉ before → '.' ∉ after →
      Splits (before ++ '.' :: after) before after

/-- Nothing at all, or something but zeros, hashes and at most one point. -/
def IsInvalid (cs : List Char) : Prop :=
  cs = [] ∨ (∃ c ∈ cs, c ∉ ['0', '#', '.']) ∨ 1 < cs.count '.'

/-- The digits that a pattern leaves of the number `rounded / 10 ^ mostFraction`. -/
structure Leaves (pattern : Pattern) (rounded : Nat) (whole fraction : List Char) : Prop where
  digits : ∀ c ∈ whole ++ fraction, c.isDigit = true
  leastWhole : pattern.leastWhole ≤ whole.length
  unpadded : pattern.leastWhole < whole.length → whole.head? ≠ some '0'
  leastFraction : pattern.leastFraction ≤ fraction.length
  mostFraction : fraction.length ≤ pattern.mostFraction
  trimmed : pattern.leastFraction < fraction.length → fraction.getLast? ≠ some '0'
  value : Numeral.value (whole ++ fraction) * 10 ^ (pattern.mostFraction - fraction.length) =
    rounded

/-- The digits as they are written, with a point only before a fraction; nothing at all is a zero. -/
def laidOut (whole fraction : List Char) : List Char :=
  if whole = [] ∧ fraction = [] then ['0']
  else if fraction = [] then whole
  else whole ++ '.' :: fraction

theorem isSymbol_iff {c : Char} : isSymbol c = true ↔ c ∈ ['0', '#', '.'] := by
  simp [isSymbol, or_assoc]

theorem ofChars?_eq_none_iff {cs : List Char} : ofChars? cs = none ↔ IsInvalid cs := by
  have hsymbols : cs.all isSymbol = false ↔ ∃ c ∈ cs, c ∉ ['0', '#', '.'] := by
    simp only [List.all_eq_false, isSymbol_iff]
  have hinvalid : (cs.isEmpty || !cs.all isSymbol || 1 < cs.count '.') = true ↔ IsInvalid cs := by
    simp only [IsInvalid, ← hsymbols, Bool.or_eq_true, List.isEmpty_iff, Bool.not_eq_true',
      decide_eq_true_eq, or_assoc]
  rw [← hinvalid]
  unfold ofChars?
  split
  · simp [*]
  · simp [*]

theorem splits_takeWhile {cs : List Char} (hcount : cs.count '.' ≤ 1) :
    Splits cs (cs.takeWhile (· != '.')) ((cs.dropWhile (· != '.')).drop 1) := by
  obtain ⟨hcs, hbefore, hstop⟩ := (@Scanner.takeWhile_dropWhile_iff (· != '.') cs
    (cs.takeWhile (· != '.')) (cs.dropWhile (· != '.'))).1 ⟨rfl, rfl⟩
  have hnone : '.' ∉ cs.takeWhile (· != '.') := fun h => by simpa using hbefore _ h
  generalize cs.takeWhile (· != '.') = before at *
  generalize cs.dropWhile (· != '.') = rest at *
  cases rest with
  | nil =>
    rw [List.append_nil] at hcs
    rw [hcs]
    exact .whole hnone
  | cons c after =>
    obtain rfl : c = '.' := by simpa using Scanner.stopsAt_cons.1 hstop
    rw [hcs] at hcount ⊢
    refine .pointed hnone fun h => ?_
    have hpos := List.count_pos_iff.2 h
    rw [List.count_append, List.count_cons_self] at hcount
    omega

/-- A pattern counts the zeros before its point, and behind it the zeros and all positions. -/
theorem ofChars?_of_not_isInvalid {cs : List Char} (h : ¬IsInvalid cs) : ∃ before after,
    Splits cs before after ∧
      ofChars? cs = some ⟨before.count '0', after.count '0', after.length⟩ := by
  cases hpattern : ofChars? cs with
  | none => exact absurd (ofChars?_eq_none_iff.1 hpattern) h
  | some pattern =>
    refine ⟨_, _, splits_takeWhile ?_, ?_⟩
    · simp only [IsInvalid, not_or, Nat.not_lt] at h
      exact h.2.2
    · unfold ofChars? at hpattern
      split at hpattern
      · cases hpattern
      · exact hpattern.symm

/-! ## Formatting -/

theorem leaves_digits {pattern : Pattern} (hroom : pattern.leastFraction ≤ pattern.mostFraction)
    {whole fraction : List Char} (hwhole : ∀ c ∈ whole, c.isDigit = true)
    (hfraction : ∀ c ∈ fraction, c.isDigit = true) (hlength : fraction.length = pattern.mostFraction) :
    pattern.Leaves (Numeral.value (whole ++ fraction))
      ((whole.dropWhile (· == '0')).leftpad pattern.leastWhole '0')
      (fraction.take pattern.leastFraction ++
        Numeral.trimTrailingZeros (fraction.drop pattern.leastFraction)) := by
  obtain ⟨k, hk⟩ := Numeral.trimTrailingZeros_spec (fraction.drop pattern.leastFraction)
  have hlast := Numeral.getLast?_trimTrailingZeros_ne (fraction.drop pattern.leastFraction)
  have hsplit : fraction = fraction.take pattern.leastFraction ++
      Numeral.trimTrailingZeros (fraction.drop pattern.leastFraction) ++ List.replicate k '0' := by
    rw [List.append_assoc, ← hk, List.take_append_drop]
  have htake : (fraction.take pattern.leastFraction).length = pattern.leastFraction := by
    rw [List.length_take, hlength, Nat.min_eq_left hroom]
  generalize Numeral.trimTrailingZeros (fraction.drop pattern.leastFraction) = trimmed at *
  generalize fraction.take pattern.leastFraction = kept at *
  have hkept : (kept ++ trimmed).length + k = pattern.mostFraction := by
    rw [← hlength, hsplit, @List.length_append _ (kept ++ trimmed), List.length_replicate]
  constructor
  · intro c hc
    rcases List.mem_append.1 hc with hc | hc
    · rcases List.mem_append.1 hc with hc | hc
      · rw [List.eq_of_mem_replicate hc]
        rfl
      · exact hwhole c ((List.dropWhile_suffix _).subset hc)
    · refine hfraction c ?_
      rw [hsplit]
      exact List.mem_append_left _ hc
  · rw [List.length_leftpad]
    exact Nat.le_max_left _ _
  · intro hlong
    rw [List.length_leftpad] at hlong
    have hnopad : pattern.leastWhole - (whole.dropWhile (· == '0')).length = 0 := by omega
    rw [List.leftpad, hnopad]
    exact Numeral.head?_dropWhile_ne whole
  · rw [List.length_append, htake]
    exact Nat.le_add_right _ _
  · omega
  · intro hlong
    rw [List.length_append, htake] at hlong
    rw [List.getLast?_append]
    cases hlast? : trimmed.getLast? with
    | none =>
      rw [List.getLast?_eq_none_iff.1 hlast?, List.length_nil] at hlong
      omega
    | some c => rwa [hlast?] at hlast
  · have hrest : pattern.mostFraction - (kept ++ trimmed).length = k := by omega
    rw [hrest, List.leftpad, List.append_assoc, Numeral.value_zeros_append,
      Numeral.value_dropWhile_append, Nat.mul_comm, ← Numeral.value_append_zeros,
      List.append_assoc, ← hsplit]

theorem any_ne_zero_iff {pattern : Pattern} {rounded : Nat} {whole fraction : List Char}
    (h : pattern.Leaves rounded whole fraction) :
    (whole ++ fraction).any (· != '0') = true ↔ rounded ≠ 0 := by
  have hpos : 10 ^ (pattern.mostFraction - fraction.length) ≠ 0 :=
    Nat.ne_of_gt (Nat.pow_pos (by decide))
  have hzero : rounded = 0 ↔ ∀ c ∈ whole ++ fraction, c = '0' := by
    rw [← Numeral.value_eq_zero_iff h.digits, ← h.value, Nat.mul_eq_zero]
    exact or_iff_left hpos
  rw [Ne, hzero, List.any_eq_true]
  simp

theorem laidOut_eq (whole fraction : List Char) : laidOut whole fraction =
    if fraction.isEmpty then (if whole.isEmpty then ['0'] else whole)
    else whole ++ '.' :: fraction := by
  cases whole <;> cases fraction <;> rfl

/-- Which digits stay is a matter of the digits alone. -/
theorem format_of_fixedDigits {pattern : Pattern} {x : Double} {digits : List Char × List Char}
    (h : fixedDigits pattern.mostFraction x = digits) :
    let whole := (digits.1.dropWhile (· == '0')).leftpad pattern.leastWhole '0'
    let fraction := digits.2.take pattern.leastFraction ++
      Numeral.trimTrailingZeros (digits.2.drop pattern.leastFraction)
    pattern.format x = String.ofList
      (Double.signChars (x.isNegative && (whole ++ fraction).any (· != '0')) ++
        laidOut whole fraction) := by
  intro whole fraction
  unfold format
  rw [h, laidOut_eq]

theorem natAbs_signed (negative : Bool) (units : Nat) :
    (Double.signed negative units).natAbs = units := by
  cases negative
  · exact Int.natAbs_natCast units
  · exact (Int.natAbs_neg _).trans (Int.natAbs_natCast units)

theorem format_finite {pattern : Pattern} (hroom : pattern.leastFraction ≤ pattern.mostFraction)
    {x : Double} (hx : x.isFinite = true) : ∃ rounded whole fraction,
      Nearest (x.rank.natAbs * 10 ^ pattern.mostFraction) Double.unitsOfOne rounded ∧
      pattern.Leaves rounded whole fraction ∧
      pattern.format x = String.ofList
        ((if x.isNegative = true ∧ rounded ≠ 0 then ['-'] else []) ++ laidOut whole fraction) := by
  cases x with
  | nan => cases hx
  | infinity negative => cases hx
  | finite negative units fits =>
    obtain ⟨whole, fraction, hsplit, hwhole, hfraction, hlength, hvalue⟩ :=
      Numeral.splitAtPoint_spec pattern.mostFraction
        (roundDiv (units * 10 ^ pattern.mostFraction) Double.unitsOfOne)
    have hleaves := leaves_digits hroom hwhole.2 hfraction hlength
    rw [hvalue] at hleaves
    refine ⟨_, _, _, ?_, hleaves, ?_⟩
    · rw [Double.rank, natAbs_signed]
      exact nearest_roundDiv _ Double.unitsOfOne_pos
    · have hdigits : fixedDigits pattern.mostFraction (.finite negative units fits) =
          (whole, fraction) := hsplit
      rw [format_of_fixedDigits hdigits, Double.signChars]
      simp only [Bool.and_eq_true, any_ne_zero_iff hleaves]

end Pattern

open Pattern in
/-- A pattern is refused exactly if it is empty, has a character that is no zero, hash or point, or
has two points. Any other one writes a finite number: it is rounded to as many places as the pattern
has behind its point, and what is written are digits of the rounded number with the zeros that the
pattern asks for and no others, and a minus if the number has one and is not rounded to zero. -/
theorem formatted_by_pattern {x : Double} (hx : x.isFinite = true) (source : String) :
    (Builtin.formatted (.double x) (.text source) = .error (.invalidFormat source) ↔
      IsInvalid source.toList) ∧
    (¬IsInvalid source.toList → ∃ before after rounded whole fraction,
      Splits source.toList before after ∧
      Nearest (x.rank.natAbs * 10 ^ after.length) Double.unitsOfOne rounded ∧
      Leaves ⟨before.count '0', after.count '0', after.length⟩ rounded whole fraction ∧
      Builtin.formatted (.double x) (.text source) = .ok (String.ofList
        ((if x.isNegative = true ∧ rounded ≠ 0 then ['-'] else []) ++
          laidOut whole fraction))) := by
  have hnone (h : ofChars? source.toList = none) :
      Builtin.formatted (.double x) (.text source) = .error (.invalidFormat source) := by
    unfold Builtin.formatted
    dsimp only
    rw [h]
    rfl
  have hsome {pattern : Pattern} (h : ofChars? source.toList = some pattern) :
      Builtin.formatted (.double x) (.text source) = .ok (pattern.format x) := by
    unfold Builtin.formatted
    dsimp only
    rw [h]
    rfl
  constructor
  · rw [← ofChars?_eq_none_iff]
    cases hparsed : ofChars? source.toList with
    | none => simp [hnone hparsed]
    | some pattern => simp [hsome hparsed]
  · intro hvalid
    obtain ⟨before, after, hsplits, hpattern⟩ := ofChars?_of_not_isInvalid hvalid
    have hroom : after.count '0' ≤ after.length := List.count_le_length
    obtain ⟨rounded, whole, fraction, hnearest, hleaves, hformat⟩ :=
      @format_finite ⟨before.count '0', after.count '0', after.length⟩ hroom x hx
    refine ⟨before, after, rounded, whole, fraction, hsplits, hnearest, hleaves, ?_⟩
    rw [hsome hpattern, hformat]

/-- A number that gets a second digit before the point by rounding. -/
def almostTen : Double := .ofRatio true (9996 * Double.unitsOfOne) 1000

open Pattern in
theorem formatted_by_pattern_almostTen :
    almostTen.isFinite = true ∧ ¬IsInvalid "#.0#".toList ∧ ∃ before after rounded whole fraction,
      Splits "#.0#".toList before after ∧
      Nearest (almostTen.rank.natAbs * 10 ^ after.length) Double.unitsOfOne rounded ∧
      Leaves ⟨before.count '0', after.count '0', after.length⟩ rounded whole fraction ∧
      Builtin.formatted (.double almostTen) (.text "#.0#") = .ok (String.ofList
        ((if almostTen.isNegative = true ∧ rounded ≠ 0 then ['-'] else []) ++
          laidOut whole fraction)) := by
  have hfinite : almostTen.isFinite = true := by decide +kernel
  have hvalid : ¬IsInvalid "#.0#".toList := by
    rw [← ofChars?_eq_none_iff]
    decide
  exact ⟨hfinite, hvalid, (formatted_by_pattern hfinite "#.0#").2 hvalid⟩

example : Builtin.formatted (.double almostTen) (.text "#.0#") = .ok "-10.0" ∧
    Builtin.formatted (.double almostTen) (.text "") = .error (.invalidFormat "") := by
  decide +kernel

end TagTemplate
