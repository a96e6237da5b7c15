import TagTemplate.Proofs.NumberText
import TagTemplate.Proofs.Scanning

/-! The lexical grammar, without a scanner: what spells which token, and what must not follow it.
That a name, a numeral or a text goes on as far as it can is said by what must not follow; so the
grammar has one step at most from any input, and the scanner takes just that. -/

namespace TagTemplate.Scanner

/-! ## The grammar -/

/-- Characters with escapes among them, and what they stand for. An escape is a backslash before a
character of the table; another character stands for itself if the characters behind it let it. -/
inductive Escaped (escapes : List (Char × Char)) (literal : Char → List Char → Prop) :
    List Char → List Char → Prop
  | nil : Escaped escapes literal [] []
  | escape {d c : Char} {raw run : List Char} : (d, c) ∈ escapes → Escaped escapes literal raw run →
      Escaped escapes literal ('\\' :: d :: raw) (c :: run)
  | plain {c : Char} {raw run : List Char} : c ≠ '\\' → literal c raw →
      Escaped escapes literal raw run → Escaped escapes literal (c :: raw) (c :: run)

def stringEscapes : List (Char × Char) :=
  [('\\', '\\'), ('"', '"'), ('n', '\n'), ('r', '\r'), ('t', '\t')]

/-- The inside of a string. -/
abbrev StringChars : List Char → List Char → Prop := Escaped stringEscapes fun c _ => c ≠ '"'

def textEscapes : List (Char × Char) := [('\\', '\\'), ('{', '{')]

/-- Text without an opening delimiter in it. -/
abbrev TextChars : List Char → List Char → Prop :=
  Escaped textEscapes fun c after => c = '{' → after.head? ≠ some '$'

def operators : List Char := ['+', '-', '*', '/', '^']

def reserved : List (String × Keyword) := [("FOR", .loop), ("END", .close)]

/-- Equal but for the case of ASCII letters. -/
def SameLetters (a b : List Char) : Prop := a.map Char.toLower = b.map Char.toLower

/-- The characters of one token inside a tag, in front of what follows them; the delimiter that ends
the tag is not among them. -/
inductive Lexeme (rest : List Char) : List Char → Token → Prop
  | echo : Lexeme rest ['='] (.keyword .echo)
  | operator {c : Char} : c ∈ operators → (c = '-' → StopsAt Char.isDigit rest) →
      Lexeme rest [c] (.element (.operator c))
  | function {name : List Char} : IsName name → StopsAt isNameChar rest →
      Lexeme rest ('@' :: name) (.element (.function (String.ofList name)))
  | keyword {name : List Char} {spelling : String} {word : Keyword} : IsName name →
      (spelling, word) ∈ reserved → SameLetters name spelling.toList → StopsAt isNameChar rest →
      Lexeme rest name (.keyword word)
  | var {name : List Char} : IsName name →
      (∀ w ∈ reserved, ¬SameLetters name w.1.toList) → StopsAt isNameChar rest →
      Lexeme rest name (.element (.var (String.ofList name)))
  /-- The value must be one of a 32-bit integer. -/
  | integer {negative : Bool} {digits : List Char} {n : Int32} : IsDigits digits →
      n.toInt = Double.signed negative (Numeral.value digits) → StopsAt runsOn rest →
      Lexeme rest (Double.signChars negative ++ digits) (.element (.integer n))
  /-- The exact value is rounded to the nearest double, which must be finite. -/
  | double {negative : Bool} {whole fraction : List Char} {x : Double} : IsDigits whole →
      IsDigits fraction →
      x = .ofRatio negative (Numeral.value (whole ++ fraction) * Double.unitsOfOne)
        (10 ^ fraction.length) →
      x.isFinite = true → StopsAt runsOn rest →
      Lexeme rest (Double.signChars negative ++ whole ++ '.' :: fraction) (.element (.double x))
  | string {raw body : List Char} : StringChars raw body →
      Lexeme rest ('"' :: raw ++ ['"']) (.element (.string (String.ofList body)))

/-- One token, the mode behind it and the input left; blanks inside a tag are skipped. -/
inductive Lexes : Mode → List Char → Token → Mode → List Char → Prop
  | tagOpen {rest : List Char} : Lexes .text ('{' :: '$' :: rest) .tagOpen .tag rest
  | text {raw run rest : List Char} : raw ≠ [] → TextChars raw run → Opens rest →
      Lexes .text (raw ++ rest) (.text (String.ofList run)) .text rest
  | textEnd : Lexes .text [] .eof .text []
  | tagClose {blanks rest : List Char} : IsBlanks blanks →
      Lexes .tag (blanks ++ '$' :: '}' :: rest) .tagClose .text rest
  | inTag {blanks s rest : List Char} {t : Token} : IsBlanks blanks → Lexeme rest s t →
      Lexes .tag (blanks ++ (s ++ rest)) t .tag rest
  | tagEnd {blanks : List Char} : IsBlanks blanks → Lexes .tag blanks .eof .tag []

/-! ## Escapes -/

theorem unescape?_eq_some_iff {d c : Char} : unescape? d = some c ↔ (d, c) ∈ stringEscapes := by
  unfold unescape?
  split <;> simp_all [stringEscapes, eq_comm]

theorem stringChars_iff {raw body : List Char} : StringChars raw body ↔ Quotes raw body := by
  constructor
  · intro h
    induction h with
    | nil => exact .nil
    | escape hc _ ih => exact .escape (unescape?_eq_some_iff.2 hc) ih
    | plain hslash hquote _ ih => exact .plain hslash hquote ih
  · intro h
    induction h with
    | nil => exact .nil
    | escape hc _ ih => exact .escape (unescape?_eq_some_iff.1 hc) ih
    | plain hslash hquote _ ih => exact .plain hslash hquote ih

theorem mem_textEscapes {d c : Char} : (d, c) ∈ textEscapes ↔ d = c ∧ (c = '\\' ∨ c = '{') := by
  simp only [textEscapes, List.mem_cons, Prod.mk.injEq, List.not_mem_nil, or_false]
  constructor
  · intro h
    rcases h with ⟨rfl, rfl⟩ | ⟨rfl, rfl⟩ <;> simp
  · intro h
    obtain ⟨rfl, rfl | rfl⟩ := h <;> simp

theorem textChars_iff {raw run : List Char} : TextChars raw run ↔ Literal raw run := by
  constructor
  · intro h
    induction h with
    | nil => exact .nil
    | escape hc _ ih =>
      obtain ⟨rfl, hc⟩ := mem_textEscapes.1 hc
      exact .escape hc ih
    | plain hslash hbrace _ ih => exact .plain hslash hbrace ih
  · intro h
    induction h with
    | nil => exact .nil
    | escape hc _ ih => exact .escape (mem_textEscapes.2 ⟨rfl, hc⟩) ih
    | plain hslash hbrace _ ih => exact .plain hslash hbrace ih

/-! ## Lexemes -/

theorem sameLetters_for {name : List Char} :
    SameLetters name "FOR".toList ↔ name.map Char.toLower = ['f', 'o', 'r'] := Iff.rfl

theorem sameLetters_end {name : List Char} :
    SameLetters name "END".toList ↔ name.map Char.toLower = ['e', 'n', 'd'] := Iff.rfl

theorem ofIdentifier?_eq_some_iff {name : List Char} {word : Keyword} :
    Keyword.ofIdentifier? name = some word ↔
      ∃ spelling, (spelling, word) ∈ reserved ∧ SameLetters name spelling.toList := by
  unfold Keyword.ofIdentifier?
  simp only [reserved, List.mem_cons, Prod.mk.injEq, List.not_mem_nil, or_false, or_and_right,
    and_assoc, exists_or, exists_eq_left, sameLetters_for, sameLetters_end]
  by_cases hfor : name.map Char.toLower = ['f', 'o', 'r']
  · simp [hfor, eq_comm]
  · by_cases hend : name.map Char.toLower = ['e', 'n', 'd']
    · simp [hend, eq_comm]
    · simp [hfor, hend]

theorem ofIdentifier?_eq_none_iff {name : List Char} :
    Keyword.ofIdentifier? name = none ↔ ∀ w ∈ reserved, ¬SameLetters name w.1.toList := by
  constructor
  · intro hnone w hw hsame
    have hsome := ofIdentifier?_eq_some_iff.2 ⟨w.1, hw, hsame⟩
    rw [hnone] at hsome
    cases hsome
  · intro h
    cases hword : Keyword.ofIdentifier? name with
    | none => rfl
    | some word =>
      obtain ⟨spelling, hmem, hsame⟩ := ofIdentifier?_eq_some_iff.1 hword
      exact absurd hsame (h _ hmem)

theorem mem_operators {c : Char} : c ∈ operators ↔ ∃ op : Operation, c = op.symbol := by
  constructor
  · intro h
    simp only [operators, List.mem_cons, List.not_mem_nil, or_false] at h
    rcases h with rfl | rfl | rfl | rfl | rfl
    · exact ⟨.add, rfl⟩
    · exact ⟨.subtract, rfl⟩
    · exact ⟨.multiply, rfl⟩
    · exact ⟨.divide, rfl⟩
    · exact ⟨.power, rfl⟩
  · intro h
    obtain ⟨op, rfl⟩ := h
    cases op <;> decide

theorem symbol_eq_minus {op : Operation} : op.symbol = '-' ↔ op = .subtract := by
  cases op <;> decide

theorem isSign_iff {sign : List Char} :
    IsSign sign ↔ ∃ negative, sign = Double.signChars negative := by
  simp [IsSign, Double.signChars]

theorem lexeme_of_spellsNumber {sign s rest : List Char} {e : Element} (hsign : IsSign sign)
    (h : SpellsNumber sign s e) (hrest : StopsAt runsOn rest) :
    Lexeme rest (sign ++ s) (.element e) := by
  obtain ⟨negative, rfl⟩ := isSign_iff.1 hsign
  cases h with
  | integer hdigits hn =>
    rw [int?_signChars hdigits, Option.bind_some] at hn
    exact .integer hdigits (int32?_eq_some_iff.1 hn) hrest
  | double hwhole hfraction hx hfinite =>
    rw [Decimal.ofChars?_pointed hwhole hfraction, Option.map_some,
      Decimal.toDouble_eq_ofRatio] at hx
    rw [← List.append_assoc]
    exact .double hwhole hfraction (Option.some.inj hx).symm hfinite hrest

theorem lexeme_of_isName {name rest : List Char} (hname : IsName name)
    (hrest : StopsAt isNameChar rest) : Lexeme rest name (tokenOfName name) := by
  unfold tokenOfName
  cases hword : Keyword.ofIdentifier? name with
  | none => exact .var hname (ofIdentifier?_eq_none_iff.1 hword) hrest
  | some word =>
    obtain ⟨spelling, hmem, hsame⟩ := ofIdentifier?_eq_some_iff.1 hword
    exact .keyword hname hmem hsame hrest

/-- What the scanner reads inside a tag is a lexeme, or the delimiter that ends the tag. -/
theorem lexeme_of_spells {s rest : List Char} {t : Token} (h : Spells rest s t) :
    s = ['$', '}'] ∧ t = .tagClose ∨ Lexeme rest s t := by
  cases h with
  | tagClose => exact .inl ⟨rfl, rfl⟩
  | echo => exact .inr .echo
  | string hraw => exact .inr (.string (stringChars_iff.2 hraw))
  | function hname hrest => exact .inr (.function hname hrest)
  | number hsign hs hrest => exact .inr (lexeme_of_spellsNumber hsign hs hrest)
  | operator hrest =>
    refine .inr (.operator (mem_operators.2 ⟨_, rfl⟩) ?_)
    exact fun hc => hrest (symbol_eq_minus.1 hc)
  | name hname hrest => exact .inr (lexeme_of_isName hname hrest)

theorem spells_of_lexeme {s rest : List Char} {t : Token} (h : Lexeme rest s t) :
    Spells rest s t := by
  cases h with
  | echo => exact .echo
  | operator hc hrest =>
    obtain ⟨op, rfl⟩ := mem_operators.1 hc
    exact .operator fun hop => hrest (symbol_eq_minus.2 hop)
  | function hname hrest => exact .function hname hrest
  | keyword hname hmem hsame hrest =>
    have hword := ofIdentifier?_eq_some_iff.2 ⟨_, hmem, hsame⟩
    have hspells := Spells.name hname hrest
    rwa [tokenOfName, hword] at hspells
  | var hname hnone hrest =>
    have hspells := Spells.name hname hrest
    rwa [tokenOfName, ofIdentifier?_eq_none_iff.2 hnone] at hspells
  | integer hdigits hn hrest =>
    refine .number (isSign_signChars _) (.integer hdigits ?_) hrest
    rw [int?_signChars hdigits, Option.bind_some]
    exact int32?_eq_some_iff.2 hn
  | double hwhole hfraction hx hfinite hrest =>
    rw [List.append_assoc]
    refine .number (isSign_signChars _) (.double hwhole hfraction ?_ hfinite) hrest
    rw [Decimal.ofChars?_pointed hwhole hfraction, Option.map_some,
      Decimal.toDouble_eq_ofRatio, hx]
  | string hraw => exact .string (stringChars_iff.1 hraw)

/-! ## Steps of the scanner -/

/-- Inside a tag only the closing delimiter changes the mode. -/
theorem Lexeme.after_tag {s rest : List Char} {t : Token} (h : Lexeme rest s t) :
    Mode.tag.after (.ok t) = .tag := by
  cases h <;> rfl

theorem lexes_iff_takes {mode mode' : Mode} {cs rest : List Char} {t : Token} (ht : t ≠ .eof) :
    Lexes mode cs t mode' rest ↔ Takes mode cs t rest ∧ mode' = mode.after (.ok t) := by
  constructor
  · intro h
    cases h with
    | tagOpen => exact ⟨.tagOpen, rfl⟩
    | text hne hraw hrest => exact ⟨.text hne (textChars_iff.1 hraw) hrest, rfl⟩
    | textEnd => exact absurd rfl ht
    | tagClose hblanks => exact ⟨.inTag hblanks .tagClose, rfl⟩
    | inTag hblanks hs => exact ⟨.inTag hblanks (spells_of_lexeme hs), hs.after_tag.symm⟩
    | tagEnd => exact absurd rfl ht
  · intro h
    obtain ⟨h, rfl⟩ := h
    cases h with
    | tagOpen => exact .tagOpen
    | text hne hraw hrest => exact .text hne (textChars_iff.2 hraw) hrest
    | inTag hblanks hs =>
      rcases lexeme_of_spells hs with ⟨rfl, rfl⟩ | hs
      · exact .tagClose hblanks
      · rw [hs.after_tag]
        exact .inTag hblanks hs

theorem Lexeme.ne_eof {s rest : List Char} {t : Token} (h : Lexeme rest s t) : t ≠ .eof :=
  (spells_of_lexeme h).ne_eof

theorem lexes_eof_iff {mode mode' : Mode} {cs rest : List Char} :
    Lexes mode cs .eof mode' rest ↔ Exhausted mode cs ∧ mode' = mode ∧ rest = [] := by
  constructor
  · intro h
    cases h with
    | textEnd => exact ⟨rfl, rfl, rfl⟩
    | inTag _ hs => exact absurd rfl hs.ne_eof
    | tagEnd hblanks => exact ⟨hblanks, rfl, rfl⟩
  · intro h
    obtain ⟨hend, hmode, rfl⟩ := h
    rw [hmode]
    cases mode with
    | text =>
      have hnil : cs = [] := hend
      rw [hnil]
      exact .textEnd
    | tag => exact .tagEnd hend

theorem front_of_exhausted {s : Scanner} (h : Exhausted s.mode s.rest) :
    s.front = (.ok .eof, []) := by
  unfold front
  split
  · rename_i hmode
    rw [hmode] at h
    have hrest : s.rest = [] := h
    rw [hrest]
    rfl
  · rename_i hmode
    rw [hmode] at h
    rw [List.dropWhile_eq_nil_iff.2 h]
    rfl

theorem next_eq_eof_iff {s s' : Scanner} (hs : s.finished = false) :
    s.next = (.ok .eof, s') ↔ Exhausted s.mode s.rest ∧ s' = ⟨s.size, [], s.mode, true⟩ := by
  constructor
  · intro h
    have hend := (next_eof_iff hs).1 (congrArg Prod.fst h)
    rw [next_eq_front hs, front_of_exhausted hend] at h
    exact ⟨hend, (congrArg Prod.snd h).symm⟩
  · intro h
    obtain ⟨hend, rfl⟩ := h
    rw [next_eq_front hs, front_of_exhausted hend]
    rfl

/-- The scanner takes the steps of the grammar. -/
theorem Lexes.next_eq {mode mode' : Mode} {cs rest : List Char} {t : Token}
    (h : Lexes mode cs t mode' rest) (size : Nat) :
    (Scanner.mk size cs mode false).next = (.ok t, ⟨size, rest, mode', decide (t = .eof)⟩) := by
  by_cases ht : t = .eof
  · subst ht
    obtain ⟨hend, rfl, rfl⟩ := lexes_eof_iff.1 h
    exact (next_eq_eof_iff rfl).2 ⟨hend, rfl⟩
  · obtain ⟨htakes, rfl⟩ := (lexes_iff_takes ht).1 h
    rw [decide_eq_false ht]
    exact (next_eq_ok_iff rfl ht).2 ⟨rest, htakes, rfl⟩

/-- No input begins with two tokens, nor with one token in two ways. -/
theorem Lexes.unique {mode mode₁ mode₂ : Mode} {cs rest₁ rest₂ : List Char} {t₁ t₂ : Token}
    (h₁ : Lexes mode cs t₁ mode₁ rest₁) (h₂ : Lexes mode cs t₂ mode₂ rest₂) :
    t₁ = t₂ ∧ mode₁ = mode₂ ∧ rest₁ = rest₂ := by
  have hnext := (h₁.next_eq 0).symm.trans (h₂.next_eq 0)
  simp only [Prod.mk.injEq, Except.ok.injEq, Scanner.mk.injEq] at hnext
  obtain ⟨htoken, -, hrest, hmode, -⟩ := hnext
  exact ⟨htoken, hmode, hrest⟩

/-- A scanner that has not come to the end of its input gives a token, and leaves an input, exactly
if the grammar has a step that does so. -/
theorem next_eq_ok_iff_lexes (size : Nat) (mode : Mode) (cs : List Char) (t : Token)
    (s' : Scanner) :
    (Scanner.mk size cs mode false).next = (.ok t, s') ↔
      ∃ mode' rest, Lexes mode cs t mode' rest ∧ s' = ⟨size, rest, mode', decide (t = .eof)⟩ := by
  constructor
  · intro h
    by_cases ht : t = .eof
    · subst ht
      obtain ⟨hend, rfl⟩ := (next_eq_eof_iff rfl).1 h
      exact ⟨mode, [], lexes_eof_iff.2 ⟨hend, rfl, rfl⟩, rfl⟩
    · obtain ⟨rest, htakes, rfl⟩ := (next_eq_ok_iff rfl ht).1 h
      exact ⟨_, rest, (lexes_iff_takes ht).2 ⟨htakes, rfl⟩, by rw [decide_eq_false ht]⟩
  · intro h
    obtain ⟨mode', rest, hlexes, rfl⟩ := h
    exact hlexes.next_eq size

end TagTemplate.Scanner
