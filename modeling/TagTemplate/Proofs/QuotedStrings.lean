import TagTemplate.Proofs.LexicalGrammar
import TagTemplate.Proofs.RoundTrip

/-! Strings in quotes. A string that the writer puts into a tag is read back as it is, in front of
whatever follows its closing quote, and nothing of what follows is taken for a part of it. So of all
the ways to spell a string the writer has one, and different strings are written differently. -/

namespace TagTemplate.Scanner

/-! ## How strings are spelled -/

/-- The token of a string is its quoted form, or another spelling of its characters between quotes;
the blanks before it are skipped. -/
theorem next_string_iff {size : Nat} {cs : List Char} {s : String} {after : Scanner} :
    (Scanner.mk size cs .tag false).next = (.ok (.element (.string s)), after) ↔
      ∃ blanks raw, cs = blanks ++ '"' :: raw ++ '"' :: after.rest ∧ IsBlanks blanks ∧
        StringChars raw s.toList ∧ after = ⟨size, after.rest, .tag, false⟩ := by
  rw [next_eq_ok_iff_lexes]
  constructor
  · intro h
    obtain ⟨mode, rest, hlexes, rfl⟩ := h
    cases hlexes with
    | @inTag blanks spelling rest t hblanks hspelling =>
      cases hspelling with
      | @string raw body hraw =>
        refine ⟨blanks, raw, by simp, hblanks, ?_, rfl⟩
        rwa [String.toList_ofList]
  · intro h
    obtain ⟨blanks, raw, hcs, hblanks, hraw, hafter⟩ := h
    have hlexeme : Lexeme after.rest ('"' :: raw ++ ['"']) (.element (.string s)) := by
      have hstring : Lexeme after.rest _ _ := .string hraw
      rwa [String.ofList_toList] at hstring
    refine ⟨.tag, after.rest, ?_, hafter⟩
    have hlexes := Lexes.inTag hblanks hlexeme
    rwa [List.append_assoc, List.singleton_append, ← List.append_assoc, ← hcs] at hlexes

/-- A string is read back from its quoted form, whatever follows. -/
theorem next_literal (s : String) (size : Nat) (rest : List Char) :
    (Scanner.mk size (Element.literal s.toList ++ rest) .tag false).next =
      (.ok (.element (.string s)), ⟨size, rest, .tag, false⟩) :=
  (spells_literal s rest).next_eq size

/-- Where two inputs begin with quoted strings, the strings are the same if the inputs are. -/
theorem literal_append_inj {s t : String} {rest more : List Char}
    (h : Element.literal t.toList ++ more = Element.literal s.toList ++ rest) :
    t = s ∧ more = rest := by
  have hnext := next_literal t 0 more
  rw [h, next_literal s 0 rest] at hnext
  simp only [Prod.mk.injEq, Except.ok.injEq, Token.element.injEq, Element.string.injEq,
    Scanner.mk.injEq] at hnext
  obtain ⟨rfl, -, rfl, -⟩ := hnext
  exact ⟨rfl, rfl⟩

/-! ## The normal form -/

/-- Any string in quotes is read as itself, up to its closing quote and no further, and the scanner
stays in the tag. Whatever else is read as this string, its quoted form can stand in its place; what
is read from it is quoted as it is already; and no quoted string begins with another one. -/
theorem quoted_form_normal (s : String) (size : Nat) (rest : List Char) :
    (Scanner.mk size (Element.literal s.toList ++ rest) .tag false).next =
      (.ok (.element (.string s)), ⟨size, rest, .tag, false⟩) ∧
    (∀ (q : List Char) (after : Scanner),
      (Scanner.mk size (q ++ rest) .tag false).next = (.ok (.element (.string s)), after) →
      after.rest = rest →
      (Scanner.mk size (Element.literal s.toList ++ rest) .tag false).next =
        (Scanner.mk size (q ++ rest) .tag false).next) ∧
    (∀ (t : String) (after : Scanner),
      (Scanner.mk size (Element.literal s.toList ++ rest) .tag false).next =
        (.ok (.element (.string t)), after) →
      Element.literal t.toList = Element.literal s.toList) ∧
    ∀ (t : String) (more : List Char),
      Element.literal t.toList ++ more = Element.literal s.toList ++ rest → t = s ∧ more = rest := by
  refine ⟨next_literal s size rest, fun q after hq hrest => ?same, fun t after ht => ?again,
    fun t more => literal_append_inj⟩
  case same =>
    obtain ⟨_, _, -, -, -, hafter⟩ := next_string_iff.1 hq
    rw [next_literal, hq, hafter, hrest]
  case again =>
    rw [next_literal] at ht
    cases ht
    rfl

/-- A string with a delimiter and a quote in it, that ends in a backslash, in front of a quote. Its
other spelling does without the escape of the line break. -/
theorem quoted_form_normal_slash :
    Element.literal "$\x7d\"\n\\".toList = "\"$\x7d\\\"\\n\\\\\"".toList ∧
    (Scanner.mk 12 ("\"$\x7d\\\"\n\\\\\"".toList ++ ['"']) .tag false).next =
      (.ok (.element (.string "$\x7d\"\n\\")), ⟨12, ['"'], .tag, false⟩) ∧
    (Scanner.mk 12 (Element.literal "$\x7d\"\n\\".toList ++ ['"']) .tag false).next =
      (Scanner.mk 12 ("\"$\x7d\\\"\n\\\\\"".toList ++ ['"']) .tag false).next := by
  have hnext : (Scanner.mk 12 ("\"$\x7d\\\"\n\\\\\"".toList ++ ['"']) .tag false).next =
      (.ok (.element (.string "$\x7d\"\n\\")), ⟨12, ['"'], .tag, false⟩) := by cbv
  obtain ⟨-, hsame, -, -⟩ := quoted_form_normal "$\x7d\"\n\\" 12 ['"']
  exact ⟨by decide, hnext, hsame _ _ hnext rfl⟩

end TagTemplate.Scanner
