import Mathlib.Algebra.Order.Ring.Nat
import Mathlib.Data.Nat.Prime.Basic
import Mathlib.Tactic.Ring
import TagTemplate.Proofs.Spelling

/-! Numbers are read back from their text. For a double this rests on two facts: rounding depends
on a quotient only, so that digits may be cut or added as long as the point moves along; and what is
written is either the exact value, which rounds to itself, or a candidate that was tried. -/

namespace TagTemplate

/-! ## Rounding -/

theorem compare_mul_right (a b : Nat) {k : Nat} (hk : 0 < k) :
    compare (a * k) (b * k) = compare a b := by
  rcases Nat.lt_trichotomy a b with h | rfl | h
  · rw [Nat.compare_eq_lt.2 h, Nat.compare_eq_lt.2 (Nat.mul_lt_mul_of_pos_right h hk)]
  · rw [Nat.compare_eq_eq.2 rfl, Nat.compare_eq_eq.2 rfl]
  · rw [Nat.compare_eq_gt.2 h, Nat.compare_eq_gt.2 (Nat.mul_lt_mul_of_pos_right h hk)]

theorem roundDiv_mul_right (num den : Nat) {k : Nat} (hk : 0 < k) :
    roundDiv (num * k) (den * k) = roundDiv num den := by
  unfold roundDiv
  rw [Nat.mul_div_mul_right _ _ hk, Nat.mul_mod_mul_right, ← Nat.mul_assoc,
    compare_mul_right _ _ hk]

theorem roundDiv_mul_self (n : Nat) {den : Nat} (hden : 0 < den) : roundDiv (n * den) den = n := by
  unfold roundDiv
  rw [Nat.mul_mod_left, Nat.mul_div_cancel _ hden, Nat.mul_zero, Nat.compare_eq_lt.2 hden]

namespace Double

theorem nearest_mul_right (num den : Nat) {k : Nat} (hk : 0 < k) :
    nearest (num * k) (den * k) = nearest num den := by
  unfold nearest
  dsimp only
  rw [Nat.mul_div_mul_right _ _ hk, Nat.mul_right_comm den, roundDiv_mul_right _ _ hk]

/-- Equal quotients are rounded alike. -/
theorem nearest_eq_of_cross {a b c d : Nat} (hb : 0 < b) (hd : 0 < d) (h : a * d = c * b) :
    nearest a b = nearest c d := by
  calc nearest a b = nearest (a * d) (b * d) := (nearest_mul_right a b hd).symm
    _ = nearest (c * b) (d * b) := by rw [h, Nat.mul_comm b d]
    _ = nearest c d := nearest_mul_right c d hb

theorem spacing_pos (units : Nat) : 0 < spacing units := Nat.two_pow_pos _

theorem unitsOfOne_pos : 0 < unitsOfOne := by
  unfold unitsOfOne
  apply Nat.two_pow_pos

theorem nearest_mul_self {units den : Nat} (h : Fits units) (hden : 0 < den) :
    nearest (units * den) den = units := by
  obtain ⟨q, hq⟩ := h.2
  have hgap := spacing_pos units
  unfold nearest
  dsimp only
  rw [Nat.mul_div_cancel _ hden]
  have hround : units * den = q * (den * spacing units) := by
    calc units * den = spacing units * q * den := by rw [← hq]
      _ = q * (den * spacing units) := by ring
  rw [hround, roundDiv_mul_self q (Nat.mul_pos hden hgap), Nat.mul_comm, ← hq]

theorem nearest_of_lt_half {num den : Nat} (h : 2 * num < den) : nearest num den = 0 := by
  have hlt : num < den := by omega
  unfold nearest
  rw [Nat.div_eq_of_lt hlt]
  have hspacing : spacing 0 = 1 := by decide
  rw [hspacing, Nat.mul_one, Nat.mul_one, roundDiv, Nat.div_eq_of_lt hlt, Nat.mod_eq_of_lt hlt,
    Nat.compare_eq_lt.2 h]

theorem ofRatio_of_nearest {negative : Bool} {num den units : Nat} (fits : Fits units)
    (h : nearest num den = units) : ofRatio negative num den = .finite negative units fits := by
  subst h
  rw [ofRatio, dif_pos fits.1]

/-! ## The exact digits -/

theorem gcd_two_pow (units k : Nat) : ∃ g, g ≤ k ∧ units.gcd (2 ^ k) = 2 ^ g :=
  (Nat.dvd_prime_pow Nat.prime_two).1 (Nat.gcd_dvd_right units (2 ^ k))

theorem exactDigits_mul (units : Nat) :
    exactDigits units * unitsOfOne = units * 10 ^ exactPlaces units := by
  obtain ⟨g, hg, hgcd⟩ : ∃ g, g ≤ 1074 ∧ units.gcd unitsOfOne = 2 ^ g := by
    unfold unitsOfOne
    apply gcd_two_pow
  have hplaces : exactPlaces units = 1074 - g := by
    rw [exactPlaces, hgcd, Nat.log2_two_pow]
  have hdvd : 2 ^ g ∣ units := hgcd ▸ Nat.gcd_dvd_left units unitsOfOne
  have hone : unitsOfOne = 2 ^ g * 2 ^ (1074 - g) := by
    rw [← Nat.pow_add, Nat.add_sub_cancel' hg, unitsOfOne]
  have hrest : 1074 - (1074 - g) = g := by omega
  rw [exactDigits, hplaces, hrest, hone, show 10 = 2 * 5 from rfl, Nat.mul_pow]
  calc units / 2 ^ g * 5 ^ (1074 - g) * (2 ^ g * 2 ^ (1074 - g))
      = units / 2 ^ g * 2 ^ g * (2 ^ (1074 - g) * 5 ^ (1074 - g)) := by ring
    _ = units * (2 ^ (1074 - g) * 5 ^ (1074 - g)) := by rw [Nat.div_mul_cancel hdvd]

theorem readsBack_exact {units : Nat} (h : Fits units) :
    readsBack units (exactPlaces units) (exactDigits units) = true := by
  have hpos : 0 < 10 ^ exactPlaces units := Nat.pow_pos (by decide)
  have hnearest : nearest (exactDigits units * unitsOfOne) (10 ^ exactPlaces units) = units := by
    rw [exactDigits_mul]
    exact nearest_mul_self h hpos
  unfold readsBack
  exact beq_iff_eq.2 hnearest

theorem reads_neighbour {reads : Nat → Bool} {exact step n : Nat}
    (h : neighbour? reads exact step = some n) : reads n = true := by
  unfold neighbour? at h
  dsimp only at h
  split at h
  · rename_i hlow hhigh
    split at h
    · cases h
      exact hlow
    · cases h
      exact hhigh
  · rename_i hlow _
    cases h
    exact hlow
  · rename_i _ hhigh
    cases h
    exact hhigh
  · cases h

theorem readsBack_shortest {units : Nat} (h : Fits units) :
    readsBack units (exactPlaces units) (shortest units) = true := by
  unfold shortest
  dsimp only
  cases hfind : (List.range 17).findSome? _ with
  | none => exact readsBack_exact h
  | some n =>
    obtain ⟨dropped, -, hn⟩ := List.exists_of_findSome?_eq_some hfind
    exact reads_neighbour hn

end Double

/-! ## The digits -/

namespace Numeral

open Scanner (IsDigits)

theorem value_append_zeros (digits : List Char) (k : Nat) :
    value (digits ++ List.replicate k '0') = 10 ^ k * value digits := by
  rw [value, Nat.ofDigitChars_append, Nat.ofDigitChars_replicate_zero, value]

theorem splitAtPoint_spec (places n : Nat) : ∃ whole fraction,
    splitAtPoint places n = (whole, fraction) ∧ IsDigits whole ∧
      (∀ c ∈ fraction, c.isDigit = true) ∧ fraction.length = places ∧
      value (whole ++ fraction) = n := by
  have hdigit : ∀ c ∈ (Nat.toDigits 10 n).leftpad (places + 1) '0', c.isDigit = true := by
    intro c hc
    rcases List.mem_append.1 hc with hzero | hc
    · rw [List.eq_of_mem_replicate hzero]
      rfl
    · exact Nat.isDigit_of_mem_toDigits (by decide) (by decide) hc
  have hvalue : value ((Nat.toDigits 10 n).leftpad (places + 1) '0') = n := by
    rw [value, List.leftpad, Nat.ofDigitChars_append, Nat.ofDigitChars_replicate_zero,
      Nat.mul_zero, Nat.ofDigitChars_ten_toDigits]
  have hlength : places < ((Nat.toDigits 10 n).leftpad (places + 1) '0').length := by
    rw [List.length_leftpad]
    omega
  generalize hpad : (Nat.toDigits 10 n).leftpad (places + 1) '0' = digits at *
  refine ⟨digits.take (digits.length - places), digits.drop (digits.length - places), ?_,
    ⟨?_, ?_⟩, ?_, ?_, ?_⟩
  · rw [splitAtPoint, hpad, List.splitAt_eq]
  · intro hnil
    have hzero := congrArg List.length hnil
    rw [List.length_take, List.length_nil] at hzero
    omega
  · exact fun c hc => hdigit c (List.mem_of_mem_take hc)
  · exact fun c hc => hdigit c (List.mem_of_mem_drop hc)
  · rw [List.length_drop]
    omega
  · rw [List.take_append_drop, hvalue]

theorem trimTrailingZeros_spec (digits : List Char) :
    ∃ k, digits = trimTrailingZeros digits ++ List.replicate k '0' := by
  have hsplit := @List.takeWhile_append_dropWhile _ (· == '0') digits.reverse
  have hzeros : ∀ c ∈ digits.reverse.takeWhile (· == '0'), c = '0' :=
    fun c hc => by simpa using List.mem_takeWhile_imp hc
  refine ⟨(digits.reverse.takeWhile (· == '0')).length, ?_⟩
  rw [← List.reverse_inj, trimTrailingZeros, List.reverse_append, List.reverse_reverse,
    List.reverse_replicate, ← List.eq_replicate_of_mem hzeros, hsplit]

/-- The digits behind the point may lose their trailing zeros, but not all be lost. -/
theorem trimmed_spec {whole fraction : List Char} (hdigit : ∀ c ∈ fraction, c.isDigit = true) :
    ∃ written, (if (trimTrailingZeros fraction).isEmpty then ['0'] else trimTrailingZeros fraction)
        = written ∧ IsDigits written ∧ value (whole ++ written) * 10 ^ fraction.length =
        value (whole ++ fraction) * 10 ^ written.length := by
  obtain ⟨k, hk⟩ := trimTrailingZeros_spec fraction
  generalize trimTrailingZeros fraction = trimmed at hk ⊢
  cases trimmed with
  | nil =>
    refine ⟨['0'], rfl, ⟨List.cons_ne_nil _ _, by simp⟩, ?_⟩
    have hone : whole ++ ['0'] = whole ++ List.replicate 1 '0' := rfl
    rw [hk, hone, value_append_zeros, List.nil_append, value_append_zeros, List.length_replicate,
      List.length_singleton]
    ring
  | cons c trimmed =>
    refine ⟨c :: trimmed, rfl, ⟨List.cons_ne_nil _ _, ?_⟩, ?_⟩
    · intro d hd
      refine hdigit d ?_
      rw [hk]
      exact List.mem_append_left _ hd
    · rw [hk, ← List.append_assoc, value_append_zeros, List.length_append, List.length_replicate,
        Nat.pow_add]
      ring

end Numeral

/-! ## Reading the text -/

open Scanner (IsDigits IsSign SpellsNumber StopsAt stopsAt_cons stopsAt_nil takeWhile_dropWhile_iff)

theorem isSign_signChars (negative : Bool) : IsSign (Double.signChars negative) := by
  cases negative
  · exact .inl rfl
  · exact .inr rfl

theorem splitSign_signChars {negative : Bool} {digits rest : List Char} (h : IsDigits digits) :
    Numeral.splitSign (Double.signChars negative ++ digits ++ rest) =
      (negative, digits ++ rest) := by
  cases negative with
  | true => rfl
  | false =>
    cases digits with
    | nil => exact absurd rfl h.1
    | cons c digits =>
      have hc := h.2 c List.mem_cons_self
      rw [Double.signChars, if_neg Bool.false_ne_true, List.nil_append, List.cons_append,
        Numeral.splitSign]
      all_goals
        intro after hafter
        rw [(List.cons.inj hafter).1] at hc
        cases hc

namespace Decimal

theorem ofChars?_pointed {negative : Bool} {whole fraction : List Char} (hwhole : IsDigits whole)
    (hfraction : IsDigits fraction) :
    ofChars? (Double.signChars negative ++ whole ++ '.' :: fraction) =
      some ⟨negative, Numeral.value (whole ++ fraction), -fraction.length⟩ := by
  have hpoint : StopsAt Char.isDigit ('.' :: fraction) := stopsAt_cons.2 rfl
  obtain ⟨hrun, hafter⟩ := takeWhile_dropWhile_iff.2 ⟨rfl, hwhole.2, hpoint⟩
  obtain ⟨hrun', hafter'⟩ :=
    takeWhile_dropWhile_iff.2 ⟨(List.append_nil fraction).symm, hfraction.2, stopsAt_nil _⟩
  have hne : whole.isEmpty = false := by simpa using hwhole.1
  unfold ofChars?
  rw [splitSign_signChars hwhole]
  simp only [hrun, hafter, hrun', hafter', hne, Bool.false_and, Bool.false_eq_true, if_false]
  simp

/-- A value that the middle test of `toDouble` sends to zero rounds to zero anyway. -/
theorem nearest_of_tiny {mantissa places : Nat}
    (h : (mantissa.log2 : Int) + 1 + 3 * -(places : Int) ≤ -1075) :
    Double.nearest (mantissa * Double.unitsOfOne) (10 ^ places) = 0 := by
  have hlog : mantissa.log2 + 1 + 1075 ≤ 3 * places := by omega
  apply Double.nearest_of_lt_half
  calc 2 * (mantissa * Double.unitsOfOne)
      < 2 * (2 ^ (mantissa.log2 + 1) * Double.unitsOfOne) :=
        Nat.mul_lt_mul_of_pos_left
          (Nat.mul_lt_mul_of_pos_right Nat.lt_log2_self Double.unitsOfOne_pos) (by decide)
    _ = 2 ^ (mantissa.log2 + 1 + 1074 + 1) := by
        unfold Double.unitsOfOne
        generalize 1074 = k
        rw [← Nat.pow_add]
        exact Nat.pow_succ'.symm
    _ ≤ 2 ^ (3 * places) := Nat.pow_le_pow_right (by decide) hlog
    _ = 8 ^ places := by rw [Nat.pow_mul]
    _ ≤ 10 ^ places := Nat.pow_le_pow_left (by decide) places

/-- A decimal without powers of ten above the point is its exact value, rounded once. -/
theorem toDouble_eq_ofRatio (negative : Bool) (mantissa places : Nat) :
    (Decimal.mk negative mantissa (-places)).toDouble =
      .ofRatio negative (mantissa * Double.unitsOfOne) (10 ^ places) := by
  unfold toDouble
  dsimp only
  split
  -- the tests before the rounding answer zero or infinity, where rounding would have given the same
  · rename_i hzero
    refine (Double.ofRatio_of_nearest Double.fits_zero ?_).symm
    rw [hzero, Nat.zero_mul]
    exact Double.nearest_of_lt_half (Nat.pow_pos (by decide))
  · split
    · omega
    · split
      · rename_i htiny
        exact (Double.ofRatio_of_nearest Double.fits_zero (nearest_of_tiny htiny)).symm
      · have hplaces : (-(-(places : Int))).toNat = places := by omega
        have hnone : (-(places : Int)).toNat = 0 := by omega
        rw [hplaces, hnone, Nat.pow_zero, Nat.mul_one]

end Decimal

/-! ## Writing with a point -/

namespace Double

/-- Digits, at least one of them before the point. -/
structure AreDigits (digits : List Char × List Char) : Prop where
  whole : IsDigits digits.1
  fraction : ∀ c ∈ digits.2, c.isDigit = true

theorem areDigits_shortestDigits (units : Nat) : AreDigits (shortestDigits units) := by
  obtain ⟨whole, fraction, hsplit, hwhole, hdigit, -, -⟩ :=
    Numeral.splitAtPoint_spec (exactPlaces units) (shortest units)
  obtain ⟨k, hk⟩ := Numeral.trimTrailingZeros_spec fraction
  rw [shortestDigits, hsplit]
  refine ⟨hwhole, fun c hc => hdigit c ?_⟩
  rw [hk]
  exact List.mem_append_left _ hc

theorem isExponentMark_of_isDigit {c : Char} (h : c.isDigit = true) : isExponentMark c = false := by
  have hrange := Scanner.toNat_of_isDigit h
  unfold isExponentMark
  rw [Bool.or_eq_false_iff, beq_eq_false_iff_ne, beq_eq_false_iff_ne]
  constructor <;> (rintro rfl; revert hrange; decide)

variable {digits : List Char × List Char}

/-- Without an exponent nothing marks one. -/
theorem any_isExponentMark_pointed (h : AreDigits digits) (negative : Bool) :
    (signChars negative ++ pointed digits).any isExponentMark = false := by
  rw [List.any_eq_false]
  intro c hc
  have hmark : c.isDigit = true ∨ c = '-' ∨ c = '.' → ¬isExponentMark c = true := by
    rintro (hdigit | rfl | rfl)
    · rw [isExponentMark_of_isDigit hdigit]
      exact Bool.false_ne_true
    · decide
    · decide
  apply hmark
  rcases List.mem_append.1 hc with hsign | hc
  · rcases isSign_signChars negative with heq | heq <;> rw [heq] at hsign
    · cases hsign
    · exact .inr (.inl (List.mem_singleton.1 hsign))
  · rcases List.mem_append.1 hc with hwhole | hc
    · exact .inl (h.whole.2 c hwhole)
    · rcases List.mem_cons.1 hc with rfl | hfraction
      · exact .inr (.inr rfl)
      · split at hfraction
        · rw [List.mem_singleton.1 hfraction]
          exact .inl rfl
        · exact .inl (h.fraction c hfraction)

theorem any_isExponentMark_scientific (negative : Bool) (digits : List Char × List Char) :
    (signChars negative ++ scientific digits).any isExponentMark = true :=
  List.any_eq_true.2 ⟨'e', by simp [scientific], rfl⟩

/-- Among digits there is a point only where it was put. -/
theorem contains_point_unpointed (h : AreDigits digits) (negative : Bool) :
    (signChars negative ++ unpointed digits).contains '.' = !digits.2.isEmpty := by
  have hpoint {cs : List Char} (hcs : ∀ c ∈ cs, c.isDigit = true) : '.' ∉ cs :=
    fun hmem => Bool.false_ne_true (hcs '.' hmem)
  have hsign : '.' ∉ signChars negative := by
    cases negative <;> decide
  unfold unpointed
  cases hempty : digits.2.isEmpty <;> simp [hsign, hpoint h.whole.2]

/-- Both ways of writing a number come to the same: its sign, and its digits with a point. -/
theorem chars_finite {negative : Bool} {units : Nat} (fits : Fits units) :
    (Double.finite negative units fits).chars =
      signChars negative ++ pointed (shortestDigits units) := by
  have hdigits := areDigits_shortestDigits units
  unfold chars variableChars
  simp only [isFinite, Bool.not_true, Bool.false_or]
  split
  · rw [any_isExponentMark_pointed hdigits]
    rfl
  · rw [any_isExponentMark_scientific, briefChars, contains_point_unpointed hdigits]
    unfold unpointed pointed
    cases (shortestDigits units).2.isEmpty <;> simp

end Double

/-- A finite number is a sign, digits, a point and digits, and they read back to it. -/
theorem Double.chars_spells {negative : Bool} {units : Nat} (fits : Double.Fits units) :
    ∃ s, (Double.finite negative units fits).chars = signChars negative ++ s ∧
      SpellsNumber (signChars negative) s (.double (.finite negative units fits)) := by
  obtain ⟨whole, fraction, hsplit, hwhole, hdigit, hlength, hvalue⟩ :=
    Numeral.splitAtPoint_spec (exactPlaces units) (shortest units)
  obtain ⟨written, hwritten, hdigits, hscale⟩ := @Numeral.trimmed_spec whole fraction hdigit
  refine ⟨whole ++ '.' :: written, ?_, .double hwhole hdigits ?_ rfl⟩
  · rw [chars_finite, shortestDigits, hsplit, pointed, Prod.map_fst, Prod.map_snd, hwritten, id]
  · rw [Decimal.ofChars?_pointed hwhole hdigits, Option.map_some, Option.some.injEq]
    refine (Decimal.toDouble_eq_ofRatio _ _ _).trans (ofRatio_of_nearest fits ?_)
    have hread := beq_iff_eq.1 (readsBack_shortest fits)
    rw [hvalue, hlength] at hscale
    rw [← hread]
    refine nearest_eq_of_cross (Nat.pow_pos (by decide)) (Nat.pow_pos (by decide)) ?_
    rw [Nat.mul_right_comm, hscale, Nat.mul_right_comm]

/-- Finite doubles are spelled as they are written, in front of whatever does not go on. -/
theorem Double.spells_text {x : Double} (hx : x.isFinite = true) {rest : List Char}
    (hrest : StopsAt Scanner.runsOn rest) :
    Scanner.Spells rest x.text.toList (.element (.double x)) := by
  cases x with
  | nan => cases hx
  | infinity negative => cases hx
  | finite negative units fits =>
    obtain ⟨s, hchars, hspells⟩ := chars_spells fits
    rw [text, String.toList_ofList, hchars]
    exact .number (isSign_signChars negative) hspells hrest

theorem int?_signChars {negative : Bool} {digits : List Char} (h : IsDigits digits) :
    Numeral.int? (Double.signChars negative ++ digits) =
      some (Double.signed negative (Numeral.value digits)) := by
  have hsplit := @splitSign_signChars negative digits [] h
  rw [List.append_nil, List.append_nil] at hsplit
  have hne : digits.isEmpty = false := by simpa using h.1
  have hall : digits.all Char.isDigit = true := List.all_eq_true.2 h.2
  unfold Numeral.int?
  rw [hsplit]
  simp only [hne, hall]
  rfl

theorem int32?_toInt (n : Int32) : Number.int32? n.toInt = some n := by
  have hlow := n.le_toInt
  have hhigh := n.toInt_lt
  rw [Number.int32?, if_pos ⟨by omega, by omega⟩, Int32.ofInt_toInt]

theorem int32?_eq_some_iff {z : Int} {n : Int32} : Number.int32? z = some n ↔ n.toInt = z := by
  constructor
  · intro h
    unfold Number.int32? at h
    split at h
    · rename_i hrange
      cases h
      exact Int32.toInt_ofInt_of_le hrange.1 hrange.2
    · cases h
  · intro h
    rw [← h, int32?_toInt]

/-- An integer is a sign and digits, and they read back to it. -/
theorem integer_spells (n : Int32) : ∃ negative digits,
    (toString n.toInt).toList = Double.signChars negative ++ digits ∧
      SpellsNumber (Double.signChars negative) digits (.integer n) := by
  have hdigits (k : Nat) : IsDigits (Nat.toDigits 10 k) :=
    ⟨Nat.toDigits_ne_nil, fun c hc => Nat.isDigit_of_mem_toDigits (by decide) (by decide) hc⟩
  have hvalue (k : Nat) : Numeral.value (Nat.toDigits 10 k) = k := Nat.ofDigitChars_ten_toDigits
  rw [Int.toString_eq_repr, Int.repr_eq_if]
  split
  · rename_i hsign
    refine ⟨false, Nat.toDigits 10 n.toInt.toNat, Nat.toList_repr, .integer (hdigits _) ?_⟩
    have hint : Double.signed false n.toInt.toNat = n.toInt := Int.toNat_of_nonneg hsign
    rw [int?_signChars (hdigits _), hvalue, hint, Option.bind_some, int32?_toInt]
  · rename_i hsign
    refine ⟨true, Nat.toDigits 10 (-n.toInt).toNat, ?_, .integer (hdigits _) ?_⟩
    · rw [String.toList_append, Nat.toList_repr]
      rfl
    · have hint : Double.signed true (-n.toInt).toNat = n.toInt := by
        rw [Double.signed, if_pos rfl]
        omega
      rw [int?_signChars (hdigits _), hvalue, hint, Option.bind_some, int32?_toInt]

end TagTemplate
