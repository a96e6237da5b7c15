import TagTemplate.Double.Bits
import TagTemplate.Proofs.NumberText
import TagTemplate.Proofs.Scanning

/-! Doubles in tags. However large or small a finite double is, it is written as a numeral with a
point and without an exponent, and the scanner reads that numeral, up to its end, as the double that
was written, bit for bit. -/

namespace TagTemplate

/-! ## Bits -/

namespace Double

theorem log2_mul_two_pow {significand : Nat} (hlow : 2 ^ 52 ≤ significand)
    (hhigh : significand < 2 ^ 53) (shift : Nat) :
    (significand * 2 ^ shift).log2 = 52 + shift := by
  have hpos : significand * 2 ^ shift ≠ 0 :=
    Nat.ne_of_gt (Nat.mul_pos (by omega) (Nat.two_pow_pos shift))
  rw [Nat.log2_eq_iff hpos, Nat.add_right_comm, Nat.pow_add, Nat.pow_add]
  exact ⟨Nat.mul_le_mul_right _ hlow, Nat.mul_lt_mul_of_pos_right hhigh (Nat.two_pow_pos shift)⟩

/-- The fields of the encoding, put together again. -/
theorem fields_eq (bits : UInt64) :
    (if (bits.toNat / 2 ^ 63 % 2 == 1) = true then 2 ^ 63 else 0) +
      bits.toNat / 2 ^ 52 % 2 ^ 11 * 2 ^ 52 + bits.toNat % 2 ^ 52 = bits.toNat := by
  have hlt := bits.toNat_lt
  split <;> simp_all <;> omega

/-- What a finite number has in its fields. -/
theorem ofBits_of_isFinite {bits : UInt64} (h : (ofBits bits).isFinite = true) :
    ∃ units fits, ofBits bits = .finite (bits.toNat / 2 ^ 63 % 2 == 1) units fits ∧
      (bits.toNat / 2 ^ 52 % 2 ^ 11 = 0 ∧ units = bits.toNat % 2 ^ 52 ∨
        0 < bits.toNat / 2 ^ 52 % 2 ^ 11 ∧
          units = (2 ^ 52 + bits.toNat % 2 ^ 52) * 2 ^ (bits.toNat / 2 ^ 52 % 2 ^ 11 - 1)) := by
  have hfraction : bits.toNat % 2 ^ 52 < 2 ^ 52 := Nat.mod_lt _ (by decide)
  unfold ofBits at h ⊢
  dsimp only at h ⊢
  split
  · rename_i hexponent
    split
    · rename_i hzero
      exact ⟨_, fits_of_fraction hfraction, rfl, .inl ⟨hzero, rfl⟩⟩
    · rename_i hne
      exact ⟨_, fits_of_fields hexponent hfraction, rfl, .inr ⟨Nat.pos_of_ne_zero hne, rfl⟩⟩
  · rename_i hlarge
    rw [dif_neg hlarge] at h
    split at h <;> cases h

/-- The place of the leading bit gives the exponent back, and the bits behind it the fraction. -/
theorem scaled_eq {units exponent fraction : Nat} (hfraction : fraction < 2 ^ 52)
    (h : exponent = 0 ∧ units = fraction ∨
      0 < exponent ∧ units = (2 ^ 52 + fraction) * 2 ^ (exponent - 1)) :
    (units.log2 - 52) * 2 ^ 52 + units / 2 ^ (units.log2 - 52) =
      exponent * 2 ^ 52 + fraction := by
  rcases h with ⟨rfl, rfl⟩ | ⟨hpos, rfl⟩
  · have hlog : units.log2 - 52 = 0 := by
      rcases Nat.eq_zero_or_pos units with rfl | hunits
      · rfl
      · have := (Nat.log2_lt (Nat.ne_of_gt hunits)).2 hfraction
        omega
    rw [hlog, Nat.pow_zero, Nat.div_one]
  · have hlog := log2_mul_two_pow (Nat.le_add_right (2 ^ 52) fraction)
      (show 2 ^ 52 + fraction < 2 ^ 53 by omega) (exponent - 1)
    rw [hlog, Nat.add_sub_cancel_left, Nat.mul_div_cancel _ (Nat.two_pow_pos _)]
    omega

/-- A finite number has one encoding. -/
theorem toBits_ofBits {bits : UInt64} (h : (ofBits bits).isFinite = true) :
    (ofBits bits).toBits = bits := by
  obtain ⟨units, fits, heq, hunits⟩ := ofBits_of_isFinite h
  have hscaled := scaled_eq (Nat.mod_lt _ (by decide)) hunits
  rw [heq, toBits, Nat.add_assoc, isNegative, hscaled, ← Nat.add_assoc, fields_eq,
    UInt64.ofNat_toNat]

/-- The sign is the highest bit. -/
theorem isNegative_ofBits {bits : UInt64} (h : (ofBits bits).isFinite = true) :
    (ofBits bits).isNegative = true ↔ 2 ^ 63 ≤ bits.toNat := by
  obtain ⟨units, fits, heq, -⟩ := ofBits_of_isFinite h
  have hlt := bits.toNat_lt
  rw [heq, isNegative, beq_iff_eq]
  omega

end Double

/-! ## Text -/

open Scanner

/-- A finite double is written as its sign, digits, a point and digits. -/
theorem Double.text_eq {x : Double} (hx : x.isFinite = true) :
    ∃ whole fraction, IsDigits whole ∧ IsDigits fraction ∧
      x.text.toList = signChars x.isNegative ++ whole ++ '.' :: fraction := by
  cases x with
  | nan => cases hx
  | infinity negative => cases hx
  | finite negative units fits =>
    obtain ⟨s, hchars, hspells⟩ := chars_spells fits
    cases hspells with
    | @double whole fraction _ hwhole hfraction =>
      refine ⟨whole, fraction, hwhole, hfraction, ?_⟩
      rw [text, String.toList_ofList, hchars, List.append_assoc]
      rfl

/-- Whatever its magnitude, a finite double is written positionally, with one point between digits
and with a minus just if its sign bit is set. In a tag, in front of whatever does not go on with the
numeral, this is read as the same double, which has the same bits, and the scanner stands behind
it. -/
theorem double_written_positionally {x : Double} (hx : x.isFinite = true) :
    (∃ whole fraction, IsDigits whole ∧ IsDigits fraction ∧
      x.text.toList = Double.signChars x.isNegative ++ whole ++ '.' :: fraction) ∧
    (∀ (size : Nat) (rest : List Char), (∀ c ∈ rest.head?, runsOn c = false) →
      (Scanner.mk size (x.text.toList ++ rest) .tag false).next =
        (.ok (.element (.double x)), ⟨size, rest, .tag, false⟩)) ∧
    ∀ bits, Double.ofBits bits = x →
      (x.isNegative = true ↔ 2 ^ 63 ≤ bits.toNat) ∧ x.toBits = bits := by
  refine ⟨Double.text_eq hx, fun size rest hrest => (Double.spells_text hx hrest).next_eq size,
    fun bits hbits => ?_⟩
  subst hbits
  exact ⟨Double.isNegative_ofBits hx, Double.toBits_ofBits hx⟩

/-- The double `-1e16`, which would be written with an exponent, and without it has no point. -/
def largeNegative : Double := .ofBits 0xC341C37937E08000

/-- It gets a point, and the delimiter behind it is left to the scanner. -/
theorem double_written_positionally_large :
    largeNegative.isFinite = true ∧ largeNegative.variableChars = "-1e16".toList ∧
    largeNegative.text = "-10000000000000000.0" ∧
    (∀ c ∈ ['$', '\x7d'].head?, runsOn c = false) ∧
    (Scanner.mk 25 ("-10000000000000000.0".toList ++ ['$', '\x7d']) .tag false).next =
      (.ok (.element (.double largeNegative)), ⟨25, ['$', '\x7d'], .tag, false⟩) ∧
    (largeNegative.isNegative = true ↔ 2 ^ 63 ≤ (0xC341C37937E08000 : UInt64).toNat) := by
  have hfinite : largeNegative.isFinite = true := by decide +kernel
  have htext : largeNegative.text = "-10000000000000000.0" := by decide +kernel
  have hword : largeNegative = .ofBits 0xC341C37937E08000 := by rw [largeNegative]
  have hstop : ∀ c ∈ ['$', '\x7d'].head?, runsOn c = false := by
    intro c hc
    cases hc
    decide
  obtain ⟨-, hread, hbits⟩ := double_written_positionally hfinite
  refine ⟨hfinite, by decide +kernel, htext, hstop, ?_, (hbits _ hword).1⟩
  rw [← htext]
  exact hread 25 _ hstop

end TagTemplate
