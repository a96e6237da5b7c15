import Mathlib.Data.List.TakeWhile
import TagTemplate.Token.Stream

/-! How tokens are spelled, and that the readers of the scanner read just these spellings. Where a
token ends may depend on what follows it, so a spelling is always one in front of some input. -/

namespace TagTemplate.Scanner

/-! ## Runs of characters -/

/-- The input does not start with a character of the class. -/
def StopsAt (p : Char → Bool) (cs : List Char) : Prop := ∀ c ∈ cs.head?, p c = false

theorem stopsAt_nil (p : Char → Bool) : StopsAt p [] := fun _ h => nomatch h

theorem stopsAt_cons {p : Char → Bool} {c : Char} {cs : List Char} :
    StopsAt p (c :: cs) ↔ p c = false := by
  simp [StopsAt]

/-- The longest run of a class, and what follows it. -/
theorem takeWhile_dropWhile_iff {p : Char → Bool} {cs run rest : List Char} :
    cs.takeWhile p = run ∧ cs.dropWhile p = rest ↔
      cs = run ++ rest ∧ (∀ c ∈ run, p c = true) ∧ StopsAt p rest := by
  refine ⟨fun h => ?_, fun h => ?_⟩
  · obtain ⟨rfl, rfl⟩ := h
    refine ⟨List.takeWhile_append_dropWhile.symm, ?_, ?_⟩
    · exact fun _ => List.mem_takeWhile_imp
    · intro c hc
      have hnot := List.head?_dropWhile_not p cs
      rw [Option.mem_def.1 hc] at hnot
      exact hnot
  · obtain ⟨rfl, hrun, hrest⟩ := h
    rw [List.takeWhile_append_of_pos hrun, List.dropWhile_append_of_pos hrun]
    cases rest with
    | nil => simp
    | cons c rest =>
      have hc := stopsAt_cons.1 hrest
      simp [hc]

/-- A letter, then letters, digits and underscores, all of them ASCII. -/
def IsName : List Char → Prop
  | [] => False
  | c :: rest => c.isAlpha = true ∧ ∀ d ∈ rest, isNameChar d = true

instance : DecidablePred IsName
  | [] => inferInstanceAs (Decidable False)
  | c :: rest => decidable_of_iff (c.isAlpha = true ∧ rest.all isNameChar = true)
    (and_congr_right' List.all_eq_true)

theorem name?_eq_some_iff {cs name rest : List Char} :
    name? cs = some (name, rest) ↔ cs = name ++ rest ∧ IsName name ∧ StopsAt isNameChar rest := by
  cases cs with
  | nil =>
    refine ⟨fun h => ?_, fun h => ?_⟩
    · cases h
    · obtain ⟨hcs, hname, -⟩ := h
      rw [(List.append_eq_nil_iff.1 hcs.symm).1] at hname
      cases hname
  | cons c tail =>
    simp only [name?]
    refine ⟨fun h => ?_, fun h => ?_⟩
    · split at h
      · rename_i hc
        obtain ⟨rfl, rfl⟩ := Prod.mk.inj (Option.some.inj h)
        have hspan : tail.takeWhile isNameChar = _ ∧ tail.dropWhile isNameChar = _ := ⟨rfl, rfl⟩
        obtain ⟨htail, hrun, hrest⟩ := takeWhile_dropWhile_iff.1 hspan
        exact ⟨by rw [List.cons_append, ← htail], ⟨hc, hrun⟩, hrest⟩
      · cases h
    · obtain ⟨hcs, hname, hrest⟩ := h
      cases name with
      | nil => cases hname
      | cons d name =>
        obtain ⟨rfl, rfl⟩ := List.cons.inj hcs
        obtain ⟨hrun, hafter⟩ := takeWhile_dropWhile_iff.2 ⟨rfl, hname.2, hrest⟩
        rw [if_pos hname.1, List.append_eq, hrun, hafter]

/-! ## Text -/

/-- A tag starts here, or the input ends. -/
def Opens (cs : List Char) : Prop := cs = [] ∨ ∃ tail, cs = '{' :: '$' :: tail

/-- Text with its escapes, and the characters it stands for. A brace stands for itself unless a
dollar sign follows it. -/
inductive Literal : List Char → List Char → Prop
  | nil : Literal [] []
  | escape {c : Char} {raw run : List Char} : c = '\\' ∨ c = '{' → Literal raw run →
      Literal ('\\' :: c :: raw) (c :: run)
  | plain {c : Char} {raw run : List Char} : c ≠ '\\' → (c = '{' → raw.head? ≠ some '$') →
      Literal raw run → Literal (c :: raw) (c :: run)

theorem textRun_opens {rest : List Char} (h : Opens rest) : textRun rest = .ok ([], rest) := by
  rcases h with rfl | ⟨tail, rfl⟩ <;> rfl

theorem textRun_escape {c : Char} (hc : c = '\\' ∨ c = '{') (cs : List Char) :
    textRun ('\\' :: c :: cs) = withFirst c (textRun cs) := by
  rcases hc with rfl | rfl <;> rfl

theorem textRun_plain {c : Char} {cs : List Char} (hc : c ≠ '\\')
    (hbrace : c = '{' → cs.head? ≠ some '$') : textRun (c :: cs) = withFirst c (textRun cs) := by
  rw [textRun]
  · rintro rest rfl rfl
    exact hbrace rfl rfl
  · intro rest h
    exact absurd h hc
  · intro rest h
    exact absurd h hc
  · intro h
    exact absurd h hc

theorem textRun_eq_ok_iff {cs run rest : List Char} :
    textRun cs = .ok (run, rest) ↔ ∃ raw, cs = raw ++ rest ∧ Literal raw run ∧ Opens rest := by
  refine ⟨fun h => ?_, fun h => ?_⟩
  · fun_induction textRun cs generalizing run rest with
    | case1 => cases h; exact ⟨[], rfl, .nil, .inl rfl⟩
    | case2 tail => cases h; exact ⟨[], rfl, .nil, .inr ⟨tail, rfl⟩⟩
    | case3 tail ih | case4 tail ih =>
      obtain ⟨run, hrun, rfl⟩ := withFirst_eq_ok_iff.1 h
      obtain ⟨raw, rfl, hraw, hrest⟩ := ih hrun
      exact ⟨_ :: _ :: raw, rfl, .escape (by simp) hraw, hrest⟩
    | case5 => cases h
    | case6 c tail hopen _ _ hplain ih =>
      obtain ⟨run, hrun, rfl⟩ := withFirst_eq_ok_iff.1 h
      obtain ⟨raw, rfl, hraw, hrest⟩ := ih hrun
      -- a brace before a dollar sign would have opened a tag
      refine ⟨c :: raw, rfl, .plain hplain ?_ hraw, hrest⟩
      rintro rfl hhead
      obtain ⟨raw, rfl⟩ := List.head?_eq_some_iff.1 hhead
      exact hopen _ rfl rfl
  · obtain ⟨raw, rfl, hraw, hrest⟩ := h
    induction hraw with
    | nil => exact textRun_opens hrest
    | escape hc _ ih =>
      rw [List.cons_append, List.cons_append, textRun_escape hc]
      exact withFirst_eq_ok_iff.2 ⟨_, ih, rfl⟩
    | @plain c raw run hc hbrace hraw ih =>
      have hhead : c = '{' → (raw ++ rest).head? ≠ some '$' := by
        intro h
        cases raw with
        | cons d raw => exact hbrace h
        | nil => rcases hrest with rfl | ⟨tail, rfl⟩ <;> simp
      rw [List.cons_append, textRun_plain hc hhead]
      exact withFirst_eq_ok_iff.2 ⟨_, ih, rfl⟩

/-! ## Strings -/

/-- The inside of a quoted string, and the characters it stands for. -/
inductive Quotes : List Char → List Char → Prop
  | nil : Quotes [] []
  | escape {letter c : Char} {raw body : List Char} : unescape? letter = some c →
      Quotes raw body → Quotes ('\\' :: letter :: raw) (c :: body)
  | plain {c : Char} {raw body : List Char} : c ≠ '\\' → c ≠ '"' → Quotes raw body →
      Quotes (c :: raw) (c :: body)

theorem stringBody_escape {letter c : Char} (h : unescape? letter = some c) (cs : List Char) :
    stringBody ('\\' :: letter :: cs) = withFirst c (stringBody cs) := by
  rw [stringBody, h]

theorem stringBody_plain {c : Char} (hslash : c ≠ '\\') (hquote : c ≠ '"') (cs : List Char) :
    stringBody (c :: cs) = withFirst c (stringBody cs) := by
  rw [stringBody]
  · exact hquote
  · intro h
    exact absurd h hslash
  · intro _ _ h
    exact absurd h hslash

theorem stringBody_eq_ok_iff {cs body rest : List Char} :
    stringBody cs = .ok (body, rest) ↔ ∃ raw, cs = raw ++ '"' :: rest ∧ Quotes raw body := by
  refine ⟨fun h => ?_, fun h => ?_⟩
  · fun_induction stringBody cs generalizing body rest with
    | case1 => cases h
    | case2 => cases h; exact ⟨[], rfl, .nil⟩
    | case3 => cases h
    | case4 letter tail c hc ih =>
      obtain ⟨body, hbody, rfl⟩ := withFirst_eq_ok_iff.1 h
      obtain ⟨raw, rfl, hraw⟩ := ih hbody
      exact ⟨'\\' :: letter :: raw, rfl, .escape hc hraw⟩
    | case5 => cases h
    | case6 c tail hquote hlast hslash ih =>
      obtain ⟨body, hbody, rfl⟩ := withFirst_eq_ok_iff.1 h
      obtain ⟨raw, rfl, hraw⟩ := ih hbody
      refine ⟨c :: raw, rfl, .plain ?_ hquote hraw⟩
      intro heq
      subst heq
      cases raw with
      | nil => exact hslash _ _ rfl rfl
      | cons d raw => exact hslash _ _ rfl rfl
  · obtain ⟨raw, rfl, hraw⟩ := h
    induction hraw with
    | nil => rfl
    | escape hc _ ih =>
      rw [List.cons_append, List.cons_append, stringBody_escape hc]
      exact withFirst_eq_ok_iff.2 ⟨_, ih, rfl⟩
    | plain hslash hquote _ ih =>
      rw [List.cons_append, stringBody_plain hslash hquote]
      exact withFirst_eq_ok_iff.2 ⟨_, ih, rfl⟩

/-! ## Numerals -/

theorem toNat_of_isDigit {c : Char} (h : c.isDigit = true) : 48 ≤ c.toNat ∧ c.toNat ≤ 57 := by
  simp only [Char.isDigit, ge_iff_le, Bool.and_eq_true, decide_eq_true_eq, UInt32.le_iff_toNat_le]
    at h
  exact h

theorem inRanges_cons {low high n : Nat} {ranges : List (Nat × Nat)} (hlow : low ≤ n)
    (hhigh : n ≤ high) : Text.inRanges ((low, high) :: ranges) n = true := by
  simp [Text.inRanges, hlow, hhigh]

theorem runsOn_of_isDigit {c : Char} (h : c.isDigit = true) : runsOn c = true := by
  obtain ⟨hlow, hhigh⟩ := toNat_of_isDigit h
  have hnum : Text.isAlphanumeric c = true := inRanges_cons hlow hhigh
  rw [runsOn, hnum, Bool.true_or, Bool.true_or]

/-- At least one digit, and nothing else. -/
def IsDigits (cs : List Char) : Prop := cs ≠ [] ∧ ∀ c ∈ cs, c.isDigit = true

def IsSign (cs : List Char) : Prop := cs = [] ∨ cs = ['-']

/-- A numeral behind its sign: an integer in range, or a finite double with a point in it. -/
inductive SpellsNumber (sign : List Char) : List Char → Element → Prop
  | integer {digits : List Char} {n : Int32} : IsDigits digits →
      (Numeral.int? (sign ++ digits)).bind Number.int32? = some n →
      SpellsNumber sign digits (.integer n)
  | double {whole fraction : List Char} {x : Double} : IsDigits whole → IsDigits fraction →
      (Decimal.ofChars? (sign ++ whole ++ '.' :: fraction)).map Decimal.toDouble = some x →
      x.isFinite = true → SpellsNumber sign (whole ++ '.' :: fraction) (.double x)

theorem numeralElement?_integer {cs : List Char} {e : Element} :
    numeralElement? false cs = some e ↔
      ∃ n, (Numeral.int? cs).bind Number.int32? = some n ∧ e = .integer n := by
  simp only [numeralElement?, Bool.false_eq_true, if_false, Option.map_eq_some_iff]
  refine ⟨fun h => ?_, fun h => ?_⟩
  · obtain ⟨n, hn, rfl⟩ := h
    exact ⟨n, hn, rfl⟩
  · obtain ⟨n, hn, rfl⟩ := h
    exact ⟨n, hn, rfl⟩

theorem numeralElement?_double {cs : List Char} {e : Element} :
    numeralElement? true cs = some e ↔
      ∃ x, (Decimal.ofChars? cs).map Decimal.toDouble = some x ∧ x.isFinite = true ∧
        e = .double x := by
  simp only [numeralElement?, if_true, Option.bind_eq_some_iff, Option.ite_none_right_eq_some]
  refine ⟨fun h => ?_, fun h => ?_⟩
  · obtain ⟨x, hx, hfinite, he⟩ := h
    exact ⟨x, hx, hfinite, (Option.some.inj he).symm⟩
  · obtain ⟨x, hx, hfinite, rfl⟩ := h
    exact ⟨x, hx, hfinite, rfl⟩

theorem endNumeral_eq_ok_iff {pointed : Bool} {text rest after : List Char} {e : Element} :
    endNumeral pointed text rest = (.ok e, after) ↔
      rest = after ∧ StopsAt runsOn rest ∧ numeralElement? pointed text = some e := by
  unfold endNumeral
  cases hrun : rest.head?.filter runsOn with
  | some c =>
    have hstop : ¬StopsAt runsOn rest := by
      intro h
      obtain ⟨hc, hruns⟩ := Option.filter_eq_some_iff.1 hrun
      rw [h c hc] at hruns
      cases hruns
    simp [hstop]
  | none =>
    have hstop : StopsAt runsOn rest := by
      intro c hc
      simpa using Option.filter_eq_none_iff.1 hrun c hc
    cases numeralElement? pointed text with
    | none => simp
    | some e' => simp [hstop, and_comm]

theorem isDigits_takeWhile {c : Char} (hc : c.isDigit = true) (cs : List Char) :
    IsDigits ((c :: cs).takeWhile Char.isDigit) := by
  constructor
  · rw [List.takeWhile_cons_of_pos hc]
    exact List.cons_ne_nil _ _
  · exact fun _ => List.mem_takeWhile_imp

theorem span_digits {digits rest : List Char} (hdigits : IsDigits digits)
    (hrest : StopsAt runsOn rest) :
    (digits ++ rest).takeWhile Char.isDigit = digits ∧
      (digits ++ rest).dropWhile Char.isDigit = rest := by
  refine takeWhile_dropWhile_iff.2 ⟨rfl, hdigits.2, ?_⟩
  intro c hc
  cases hdigit : c.isDigit with
  | false => rfl
  | true => exact absurd (runsOn_of_isDigit hdigit) (by simp [hrest c hc])

theorem spellsNumber_of_unsignedNumeral {sign tail rest : List Char} {c : Char} {e : Element}
    (hc : c.isDigit = true) (h : unsignedNumeral sign (c :: tail) = (.ok e, rest)) :
    ∃ s, c :: tail = s ++ rest ∧ SpellsNumber sign s e ∧ StopsAt runsOn rest := by
  have hwhole := isDigits_takeWhile hc tail
  have hsplit : (c :: tail).takeWhile Char.isDigit ++ (c :: tail).dropWhile Char.isDigit =
      c :: tail := List.takeWhile_append_dropWhile
  unfold unsignedNumeral at h
  dsimp only at h
  split at h
  · rename_i after hpoint
    rw [hpoint] at hsplit
    split at h
    · cases h
    · rename_i hne
      obtain ⟨hrest, hstop, he⟩ := endNumeral_eq_ok_iff.1 h
      obtain ⟨x, hx, hfinite, rfl⟩ := numeralElement?_double.1 he
      have hfraction : IsDigits (after.takeWhile Char.isDigit) :=
        ⟨by simpa using hne, fun _ => List.mem_takeWhile_imp⟩
      refine ⟨_, ?_, .double hwhole hfraction hx hfinite, hrest ▸ hstop⟩
      rw [List.append_assoc, List.cons_append, ← hrest, List.takeWhile_append_dropWhile, hsplit]
  · obtain ⟨hrest, hstop, he⟩ := endNumeral_eq_ok_iff.1 h
    obtain ⟨n, hn, rfl⟩ := numeralElement?_integer.1 he
    refine ⟨_, ?_, .integer hwhole hn, hrest ▸ hstop⟩
    rw [← hrest, hsplit]

theorem unsignedNumeral_of_spellsNumber {sign s rest : List Char} {e : Element}
    (h : SpellsNumber sign s e) (hrest : StopsAt runsOn rest) :
    unsignedNumeral sign (s ++ rest) = (.ok e, rest) := by
  cases h with
  | @integer digits n hdigits hn =>
    obtain ⟨hrun, hafter⟩ := span_digits hdigits hrest
    unfold unsignedNumeral
    rw [hrun, hafter]
    dsimp only
    split
    · have hpoint := stopsAt_cons.1 hrest
      cases hpoint
    · exact endNumeral_eq_ok_iff.2 ⟨rfl, hrest, numeralElement?_integer.2 ⟨n, hn, rfl⟩⟩
  | @double whole fraction x hwhole hfraction hx hfinite =>
    have hpoint : StopsAt Char.isDigit ('.' :: (fraction ++ rest)) := stopsAt_cons.2 rfl
    obtain ⟨hrun, hafter⟩ := takeWhile_dropWhile_iff.2 ⟨rfl, hwhole.2, hpoint⟩
    obtain ⟨hrun', hafter'⟩ := span_digits hfraction hrest
    have hne : fraction.isEmpty = false := by simpa using hfraction.1
    unfold unsignedNumeral
    rw [List.append_assoc, List.cons_append, hrun, hafter]
    simp only [hrun', hafter', hne, Bool.false_eq_true, if_false]
    exact endNumeral_eq_ok_iff.2 ⟨rfl, hrest, numeralElement?_double.2 ⟨x, hx, hfinite, rfl⟩⟩

theorem SpellsNumber.starts {sign s : List Char} {e : Element} (h : SpellsNumber sign s e) :
    ∃ c tail, s = c :: tail ∧ c.isDigit = true := by
  have hdigits {digits : List Char} (h : IsDigits digits) (after : List Char) :
      ∃ c tail, digits ++ after = c :: tail ∧ c.isDigit = true := by
    cases digits with
    | nil => exact absurd rfl h.1
    | cons c tail => exact ⟨c, tail ++ after, rfl, h.2 c List.mem_cons_self⟩
  cases h with
  | integer h => simpa using hdigits h []
  | double h => exact hdigits h _

theorem numeral_eq_ok_iff {cs rest : List Char} {e : Element} (hstart : startsNumeral cs = true) :
    numeral cs = (.ok e, rest) ↔ ∃ sign s, cs = sign ++ s ++ rest ∧ IsSign sign ∧
      SpellsNumber sign s e ∧ StopsAt runsOn rest := by
  refine ⟨fun h => ?_, fun h => ?_⟩
  · unfold numeral at h
    split at h
    · rename_i tail
      cases tail with
      | nil => cases hstart
      | cons c tail =>
        obtain ⟨s, htail, hs, hrest⟩ := spellsNumber_of_unsignedNumeral hstart h
        exact ⟨['-'], s, by rw [htail]; rfl, .inr rfl, hs, hrest⟩
    · rename_i hminus
      cases cs with
      | nil => cases hstart
      | cons c tail =>
        have hc := isDigit_of_startsNumeral hstart fun hc => hminus tail (by rw [hc])
        obtain ⟨s, hcs, hs, hrest⟩ := spellsNumber_of_unsignedNumeral hc h
        exact ⟨[], s, hcs, .inl rfl, hs, hrest⟩
  · obtain ⟨sign, s, rfl, hsign, hs, hrest⟩ := h
    have hread := unsignedNumeral_of_spellsNumber hs hrest
    rcases hsign with rfl | rfl
    · obtain ⟨c, tail, rfl, hc⟩ := hs.starts
      rw [List.nil_append, numeral]
      · exact hread
      · intro after hafter
        rw [(List.cons.inj hafter).1] at hc
        cases hc
    · exact hread

/-! ## Tokens inside a tag -/

/-- The characters of a token inside a tag, in front of what follows them. -/
inductive Spells (rest : List Char) : List Char → Token → Prop
  | tagClose : Spells rest ['$', '}'] .tagClose
  | echo : Spells rest ['='] (.keyword .echo)
  | string {raw body : List Char} : Quotes raw body →
      Spells rest ('"' :: raw ++ ['"']) (.element (.string (String.ofList body)))
  | function {name : List Char} : IsName name → StopsAt isNameChar rest →
      Spells rest ('@' :: name) (.element (.function (String.ofList name)))
  | number {sign s : List Char} {e : Element} : IsSign sign → SpellsNumber sign s e →
      StopsAt runsOn rest → Spells rest (sign ++ s) (.element e)
  | operator {op : Operation} : (op = .subtract → StopsAt Char.isDigit rest) →
      Spells rest [op.symbol] (.element (.operator op.symbol))
  | name {name : List Char} : IsName name → StopsAt isNameChar rest →
      Spells rest name (tokenOfName name)

theorem ofSymbol?_eq_some_iff {c : Char} {op : Operation} :
    Operation.ofSymbol? c = some op ↔ c = op.symbol := by
  constructor
  · intro h
    unfold Operation.ofSymbol? at h
    split at h <;> cases h <;> rfl
  · intro heq
    subst heq
    cases op <;> rfl

theorem toNat_of_isAlpha {c : Char} (h : c.isAlpha = true) :
    65 ≤ c.toNat ∧ c.toNat ≤ 90 ∨ 97 ≤ c.toNat ∧ c.toNat ≤ 122 := by
  unfold Char.isAlpha Char.isUpper Char.isLower at h
  simp only [ge_iff_le, Bool.or_eq_true, Bool.and_eq_true, decide_eq_true_eq,
    UInt32.le_iff_toNat_le] at h
  exact h

theorem isDigit_of_isAlpha {c : Char} (h : c.isAlpha = true) : c.isDigit = false := by
  cases hdigit : c.isDigit with
  | false => rfl
  | true =>
    have halpha := toNat_of_isAlpha h
    have hrange := toNat_of_isDigit hdigit
    omega

theorem startsNumeral_cons {c : Char} (hc : c ≠ '-') (rest : List Char) :
    startsNumeral (c :: rest) = c.isDigit := by
  rw [startsNumeral]
  rintro d after h -
  exact hc h

theorem startsNumeral_minus {rest : List Char} :
    startsNumeral ('-' :: rest) = false ↔ StopsAt Char.isDigit rest := by
  cases rest with
  | nil => simp [startsNumeral, stopsAt_nil]
  | cons c rest =>
    rw [stopsAt_cons]
    rfl

theorem startsNumeral_operator {op : Operation} {rest : List Char} :
    startsNumeral (op.symbol :: rest) = false ↔ (op = .subtract → StopsAt Char.isDigit rest) := by
  cases op with
  | subtract =>
    rw [Operation.symbol, startsNumeral_minus]
    exact ⟨fun h _ => h, fun h => h rfl⟩
  | _ => simp [Operation.symbol, startsNumeral]

theorem startsNumeral_of_isAlpha {c : Char} (hc : c.isAlpha = true) (rest : List Char) :
    startsNumeral (c :: rest) = false := by
  have hminus : c ≠ '-' := by
    intro heq
    subst heq
    cases hc
  rw [startsNumeral_cons hminus]
  exact isDigit_of_isAlpha hc

theorem startsNumeral_number {sign s : List Char} {e : Element} (hsign : IsSign sign)
    (hs : SpellsNumber sign s e) (rest : List Char) :
    startsNumeral (sign ++ s ++ rest) = true := by
  obtain ⟨c, tail, rfl, hc⟩ := hs.starts
  rcases hsign with rfl | rfl
  · rw [List.nil_append, List.cons_append, startsNumeral_cons ?_, hc]
    intro heq
    subst heq
    cases hc
  · exact hc

theorem spells_of_plainToken {size : Nat} {c : Char} {tail rest : List Char} {t : Token}
    (h : plainToken size c tail = (.ok t, rest)) : ∃ s, c :: tail = s ++ rest ∧ Spells rest s t := by
  unfold plainToken at h
  split at h
  · rename_i hstart
    unfold numeralToken at h
    split at h
    · rename_i hnum
      cases h
      obtain ⟨sign, s, hcs, hsign, hs, hrest⟩ := (numeral_eq_ok_iff hstart).1 hnum
      exact ⟨sign ++ s, hcs, .number hsign hs hrest⟩
    · cases h
  · rename_i hstart
    split at h
    · rename_i hop
      cases h
      obtain ⟨op, hop⟩ := Option.isSome_iff_exists.1 hop
      obtain rfl := ofSymbol?_eq_some_iff.1 hop
      exact ⟨[_], rfl, .operator (startsNumeral_operator.1 (by simpa using hstart))⟩
    · split at h
      · rename_i hname
        cases h
        obtain ⟨hcs, hname, hrest⟩ := name?_eq_some_iff.1 hname
        exact ⟨_, hcs, .name hname hrest⟩
      · cases h

theorem spells_of_tagToken {size : Nat} {cs rest : List Char} {t : Token}
    (h : tagToken size cs = (.ok t, rest)) (ht : t ≠ .eof) :
    ∃ s, cs = s ++ rest ∧ Spells rest s t := by
  unfold tagToken at h
  split at h
  · cases h
    exact absurd rfl ht
  · cases h
    exact ⟨['$', '}'], rfl, .tagClose⟩
  · cases h
    exact ⟨['='], rfl, .echo⟩
  · unfold stringToken at h
    split at h
    · rename_i hbody
      cases h
      obtain ⟨raw, rfl, hraw⟩ := stringBody_eq_ok_iff.1 hbody
      exact ⟨'"' :: raw ++ ['"'], by simp, .string hraw⟩
    · cases h
    · cases h
  · unfold functionToken at h
    split at h
    · rename_i hname
      cases h
      obtain ⟨rfl, hname, hrest⟩ := name?_eq_some_iff.1 hname
      exact ⟨'@' :: _, rfl, .function hname hrest⟩
    · cases h
  · exact spells_of_plainToken h

theorem tagToken_of_startsNumeral {size : Nat} {cs : List Char}
    (hstart : startsNumeral cs = true) : tagToken size cs = numeralToken size cs := by
  unfold tagToken
  split
  · cases hstart
  · cases hstart
  · cases hstart
  · cases hstart
  · cases hstart
  · rw [plainToken, if_pos hstart]

theorem tagToken_operator {size : Nat} {op : Operation} {rest : List Char}
    (h : op = .subtract → StopsAt Char.isDigit rest) :
    tagToken size (op.symbol :: rest) = (.ok (.element (.operator op.symbol)), rest) := by
  have hstart := startsNumeral_operator.2 h
  have hop : (Operation.ofSymbol? op.symbol).isSome = true := by
    rw [ofSymbol?_eq_some_iff.2 rfl]
    rfl
  have hplain : tagToken size (op.symbol :: rest) = plainToken size op.symbol rest := by
    cases op <;> rfl
  rw [hplain, plainToken, hstart, hop]
  rfl

theorem tagToken_name {size : Nat} {cs name rest : List Char}
    (h : name? cs = some (name, rest)) : tagToken size cs = (.ok (tokenOfName name), rest) := by
  cases cs with
  | nil => cases h
  | cons c tail =>
    have hc : c.isAlpha = true := by
      rw [name?] at h
      split at h
      · assumption
      · cases h
    have hop : (Operation.ofSymbol? c).isSome = false := by
      cases hop : Operation.ofSymbol? c with
      | none => rfl
      | some op =>
        rw [ofSymbol?_eq_some_iff.1 hop] at hc
        cases op <;> cases hc
    unfold tagToken
    split
    case h_6 heq =>
      cases heq
      rw [plainToken, startsNumeral_of_isAlpha hc, hop, h]
      rfl
    case h_1 heq => cases heq
    all_goals
      rename_i heq
      rw [(List.cons.inj heq).1] at hc
      cases hc

theorem tagToken_of_spells {size : Nat} {s rest : List Char} {t : Token} (h : Spells rest s t) :
    tagToken size (s ++ rest) = (.ok t, rest) := by
  cases h with
  | tagClose => rfl
  | echo => rfl
  | @string raw body hraw =>
    have hbody : stringBody (raw ++ '"' :: rest) = .ok (body, rest) :=
      stringBody_eq_ok_iff.2 ⟨raw, rfl, hraw⟩
    rw [List.cons_append, List.cons_append, List.append_assoc, tagToken, stringToken,
      List.singleton_append, hbody]
  | function hname hrest =>
    rw [List.cons_append, tagToken, functionToken, name?_eq_some_iff.2 ⟨rfl, hname, hrest⟩]
  | number hsign hs hrest =>
    have hstart := startsNumeral_number hsign hs rest
    have hread := (numeral_eq_ok_iff hstart).2 ⟨_, _, rfl, hsign, hs, hrest⟩
    rw [tagToken_of_startsNumeral hstart, numeralToken, hread]
  | operator hrest => exact tagToken_operator hrest
  | name hname hrest => exact tagToken_name (name?_eq_some_iff.2 ⟨rfl, hname, hrest⟩)

theorem tagToken_eq_ok_iff {size : Nat} {cs rest : List Char} {t : Token} (ht : t ≠ .eof) :
    tagToken size cs = (.ok t, rest) ↔ ∃ s, cs = s ++ rest ∧ Spells rest s t := by
  constructor
  · exact fun h => spells_of_tagToken h ht
  · intro h
    obtain ⟨s, rfl, hs⟩ := h
    exact tagToken_of_spells hs

theorem isBlank_eq_false {c : Char} (hlow : 33 ≤ c.toNat) (hhigh : c.toNat ≤ 126) :
    Text.isBlank c = false := by
  simp only [Text.isBlank, Text.blankRanges, Text.inRanges]
  simp only [Bool.and_eq_false_iff, Bool.or_eq_false_iff, decide_eq_false_iff_not]
  omega

theorem IsName.head {name : List Char} (h : IsName name) :
    ∃ c tail, name = c :: tail ∧ c.isAlpha = true := by
  cases name with
  | nil => cases h
  | cons c tail => exact ⟨c, tail, rfl, h.1⟩

/-- No token starts with a blank. -/
theorem Spells.head {s rest : List Char} {t : Token} (h : Spells rest s t) :
    ∃ c tail, s = c :: tail ∧ Text.isBlank c = false := by
  cases h with
  | tagClose => exact ⟨_, _, rfl, rfl⟩
  | echo => exact ⟨_, _, rfl, rfl⟩
  | string => exact ⟨_, _, rfl, rfl⟩
  | function => exact ⟨_, _, rfl, rfl⟩
  | number hsign hs =>
    obtain ⟨c, tail, rfl, hc⟩ := hs.starts
    rcases hsign with rfl | rfl
    · have hrange := toNat_of_isDigit hc
      exact ⟨c, tail, rfl, isBlank_eq_false (by omega) (by omega)⟩
    · exact ⟨_, _, rfl, rfl⟩
  | @operator op => exact ⟨_, _, rfl, by cases op <;> rfl⟩
  | name hname =>
    obtain ⟨c, tail, rfl, hc⟩ := hname.head
    have hrange := toNat_of_isAlpha hc
    exact ⟨c, tail, rfl, isBlank_eq_false (by omega) (by omega)⟩

end TagTemplate.Scanner
