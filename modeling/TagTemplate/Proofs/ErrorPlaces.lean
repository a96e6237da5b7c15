import TagTemplate.Proofs.LexicalGrammar

/-! Where scanning errors point. However many tokens and errors lie behind the scanner, what is left
to it is a suffix of its whole input, so the place of an error is where some suffix begins, and what
the error says is seen there. -/

namespace TagTemplate

namespace Scanner

/-! ## What errors say -/

/-- What may stand behind a backslash. -/
def Mode.escapes : Mode → List (Char × Char)
  | .text => textEscapes
  | .tag => stringEscapes

/-- The number of backslashes that a run ends in. -/
def trailingSlashes (run : List Char) : Nat := (run.reverse.takeWhile (· == '\\')).length

/-- The character behind the run is escaped, since the backslashes before it are odd in number. -/
def EscapesNext (run : List Char) : Prop := trailingSlashes run % 2 = 1

def StartsNumeral (cs : List Char) : Prop :=
  ∃ c tail, c.isDigit = true ∧ (cs = c :: tail ∨ cs = '-' :: c :: tail)

end Scanner

open Scanner

def ScanError.offset? : ScanError → Option Nat
  | .invalidEscape offset _ | .unterminatedString offset | .malformedNumber offset _
  | .invalidIdentifier offset | .unrecognizedCharacter offset _ => some offset
  | .pastEof => none

/-- What stands in the input at the place of an error, where the token that fails starts at `start`.
A bad escape may lie inside the token; all other errors are placed where it starts. -/
def ScanError.Shows (input : List Char) (mode : Mode) (start : Nat) : ScanError → Prop
  | .invalidEscape offset found =>
    start ≤ offset ∧ input[offset]? = some '\\' ∧ found.toList = input[offset + 1]?.toList ∧
      ∀ c ∈ input[offset + 1]?, ∀ d, (c, d) ∉ mode.escapes
  | .unterminatedString offset =>
    offset = start ∧ input[offset]? = some '"' ∧
      ∀ run rest, input.drop (offset + 1) = run ++ '"' :: rest → EscapesNext run
  | .malformedNumber offset text =>
    offset = start ∧ (input.drop offset).take text.toList.length = text.toList ∧
      StartsNumeral text.toList
  | .invalidIdentifier offset =>
    offset = start ∧ input[offset]? = some '@' ∧ ∀ c ∈ input[offset + 1]?, c.isAlpha = false
  | .unrecognizedCharacter offset found => offset = start ∧ input[offset]? = some found
  | .pastEof => False

namespace Scanner

/-! ## Suffixes of the input -/

section

variable {input rest : List Char}

theorem getElem?_of_suffix (h : rest <:+ input) (i : Nat) :
    input[input.length - rest.length + i]? = rest[i]? := by
  rw [← List.getElem?_drop, ← List.suffix_iff_eq_drop.1 h]

theorem drop_succ_of_suffix {c : Char} (h : c :: rest <:+ input) :
    input.drop (input.length - (rest.length + 1) + 1) = rest := by
  rw [← List.drop_drop, ← List.length_cons, ← List.suffix_iff_eq_drop.1 h]
  rfl

end

/-! ## Escapes -/

theorem withFirst_eq_error_iff {ε : Type} {c : Char} {read : Except ε (List Char × List Char)}
    {fault : ε} : withFirst c read = .error fault ↔ read = .error fault := by
  cases read <;> simp [withFirst, Except.map]

/-- A run of text fails at a backslash that starts no escape. -/
theorem textRun_error {cs rest : List Char} (h : textRun cs = .error rest) :
    rest <:+ cs ∧ ∃ tail, rest = '\\' :: tail ∧ ∀ c ∈ tail.head?, ∀ d, (c, d) ∉ textEscapes := by
  fun_induction textRun cs with
  | case1 => cases h
  | case2 => cases h
  | case3 tail ih | case4 tail ih =>
    obtain ⟨hsuffix, hrest⟩ := ih (withFirst_eq_error_iff.1 h)
    exact ⟨hsuffix.trans (List.suffix_append [_, _] tail), hrest⟩
  | case5 tail hslash hbrace =>
    cases h
    refine ⟨List.suffix_rfl, tail, rfl, ?_⟩
    intro c hc d hmem
    obtain ⟨after, rfl⟩ := List.head?_eq_some_iff.1 hc
    obtain ⟨rfl, rfl | rfl⟩ := mem_textEscapes.1 hmem
    · exact hslash after rfl
    · exact hbrace after rfl
  | case6 c tail _ _ _ _ ih =>
    obtain ⟨hsuffix, hrest⟩ := ih (withFirst_eq_error_iff.1 h)
    exact ⟨hsuffix.trans (List.suffix_cons c tail), hrest⟩

theorem stringBody_badEscape {cs rest : List Char} (h : stringBody cs = .error (.badEscape rest)) :
    rest <:+ cs ∧ ∃ tail, rest = '\\' :: tail ∧ ∀ c ∈ tail.head?, ∀ d, (c, d) ∉ stringEscapes := by
  fun_induction stringBody cs with
  | case1 => cases h
  | case2 => cases h
  | case3 => cases h
  | case4 letter tail c hc ih =>
    obtain ⟨hsuffix, hrest⟩ := ih (withFirst_eq_error_iff.1 h)
    exact ⟨hsuffix.trans (List.suffix_append [_, _] tail), hrest⟩
  | case5 letter tail hnone =>
    cases h
    refine ⟨List.suffix_rfl, letter :: tail, rfl, ?_⟩
    intro c hc d hmem
    obtain rfl : letter = c := by simpa using hc
    rw [unescape?_eq_some_iff.2 hmem] at hnone
    cases hnone
  | case6 c tail _ _ _ ih =>
    obtain ⟨hsuffix, hrest⟩ := ih (withFirst_eq_error_iff.1 h)
    exact ⟨hsuffix.trans (List.suffix_cons c tail), hrest⟩

/-! ## Strings without an end -/

theorem trailingSlashes_le (run : List Char) : trailingSlashes run ≤ run.length := by
  have hle := (List.takeWhile_prefix (· == '\\') (l := run.reverse)).length_le
  rwa [List.length_reverse] at hle

/-- A character in front of a run counts only if it is a backslash and so is the whole run. -/
theorem trailingSlashes_cons (c : Char) (run : List Char) :
    trailingSlashes (c :: run) =
      if trailingSlashes run = run.length ∧ c = '\\' then trailingSlashes run + 1
      else trailingSlashes run := by
  unfold trailingSlashes
  rw [List.reverse_cons, List.takeWhile_append, List.length_reverse]
  by_cases hrun : (run.reverse.takeWhile (· == '\\')).length = run.length
  · by_cases hc : c = '\\' <;> simp [hrun, hc]
  · simp [hrun]

theorem escapesNext_plain {c : Char} (hc : c ≠ '\\') (run : List Char) :
    EscapesNext (c :: run) ↔ EscapesNext run := by
  simp [EscapesNext, trailingSlashes_cons, hc]

theorem escapesNext_escape (c : Char) (run : List Char) :
    EscapesNext ('\\' :: c :: run) ↔ EscapesNext run := by
  have hle := trailingSlashes_le run
  unfold EscapesNext
  simp only [trailingSlashes_cons, List.length_cons]
  by_cases hrun : trailingSlashes run = run.length
  · by_cases hc : c = '\\'
    · simp only [hrun, hc, and_self, if_true]
      omega
    · simp [hrun, hc]
  · have hne : trailingSlashes run ≠ run.length + 1 := by omega
    simp [hrun, hne]

/-- In a string that does not end, every quote is part of an escape. -/
theorem stringBody_unterminated {cs rest : List Char}
    (h : stringBody cs = .error (.unterminated rest)) :
    rest <:+ cs ∧ ∀ run after, cs = run ++ '"' :: after → EscapesNext run := by
  fun_induction stringBody cs with
  | case1 =>
    cases h
    exact ⟨List.suffix_rfl, fun run after hcs => by simp at hcs⟩
  | case2 => cases h
  | case3 =>
    cases h
    refine ⟨List.suffix_rfl, fun run after hcs => ?_⟩
    cases run <;> simp at hcs
  | case4 letter tail c hc ih =>
    obtain ⟨hsuffix, htail⟩ := ih (withFirst_eq_error_iff.1 h)
    refine ⟨hsuffix.trans (List.suffix_append [_, _] tail), fun run after hcs => ?_⟩
    rcases run with _ | ⟨_, _ | ⟨_, run⟩⟩
    · cases hcs
    · obtain ⟨rfl, -⟩ := List.cons.inj hcs
      rfl
    · simp only [List.cons_append, List.cons.injEq] at hcs
      obtain ⟨rfl, rfl, hrun⟩ := hcs
      exact (escapesNext_escape letter run).2 (htail run after hrun)
  | case5 => cases h
  | case6 c tail hquote hlast hslash ih =>
    obtain ⟨hsuffix, htail⟩ := ih (withFirst_eq_error_iff.1 h)
    refine ⟨hsuffix.trans (List.suffix_cons c tail), fun run after hcs => ?_⟩
    rcases run with _ | ⟨_, run⟩
    · exact absurd (List.cons.inj hcs).1 hquote
    · obtain ⟨rfl, hrun⟩ := List.cons.inj hcs
      have hplain : c ≠ '\\' := by
        intro hc
        rcases run with _ | ⟨d, run⟩ <;> exact hslash _ _ hc hrun
      exact (escapesNext_plain hplain run).2 (htail run after hrun)

/-! ## Numerals -/

theorem endNumeral_error {pointed : Bool} {text text' rest after : List Char}
    (h : endNumeral pointed text rest = (.error text', after)) :
    text <+: text' ∧ text' <+: text ++ rest := by
  unfold endNumeral at h
  split at h
  · rename_i c hc
    cases h
    obtain ⟨hhead, -⟩ := Option.filter_eq_some_iff.1 hc
    obtain ⟨tail, rfl⟩ := List.head?_eq_some_iff.1 hhead
    exact ⟨List.prefix_append text [c], by simp⟩
  · split at h
    · cases h
    · cases h
      exact ⟨List.prefix_rfl, List.prefix_append _ rest⟩

/-- The text of a malformed numeral is put together from pieces that lie side by side. -/
theorem unsignedNumeral_error {sign cs text rest : List Char}
    (h : unsignedNumeral sign cs = (.error text, rest)) :
    sign ++ cs.takeWhile Char.isDigit <+: text ∧ text <+: sign ++ cs := by
  have hsplit : cs.takeWhile Char.isDigit ++ cs.dropWhile Char.isDigit = cs :=
    List.takeWhile_append_dropWhile
  unfold unsignedNumeral at h
  dsimp only at h
  split at h
  · rename_i after hpoint
    have hafter : after.takeWhile Char.isDigit ++ after.dropWhile Char.isDigit = after :=
      List.takeWhile_append_dropWhile
    rw [hpoint] at hsplit
    have hwhole : sign ++ cs = sign ++ cs.takeWhile Char.isDigit ++
        '.' :: after.takeWhile Char.isDigit ++ after.dropWhile Char.isDigit := by
      rw [List.append_assoc, List.cons_append, hafter, List.append_assoc, hsplit]
    split at h
    · cases h
      exact ⟨List.prefix_append _ _, hwhole ▸ List.prefix_append _ _⟩
    · obtain ⟨hlead, htext⟩ := endNumeral_error h
      exact ⟨(List.prefix_append _ _).trans hlead, hwhole ▸ htext⟩
  · obtain ⟨hlead, htext⟩ := endNumeral_error h
    rw [List.append_assoc, hsplit] at htext
    exact ⟨hlead, htext⟩

theorem startsNumeral_of_prefix {sign text tail : List Char} {c : Char} (hsign : IsSign sign)
    (hc : c.isDigit = true) (h : sign ++ (c :: tail).takeWhile Char.isDigit <+: text) :
    StartsNumeral text := by
  rw [List.takeWhile_cons_of_pos hc] at h
  obtain ⟨more, rfl⟩ := h
  rcases hsign with rfl | rfl
  · exact ⟨c, _, hc, .inl rfl⟩
  · exact ⟨c, _, hc, .inr rfl⟩

theorem numeral_error {cs text rest : List Char} (hstart : startsNumeral cs = true)
    (h : numeral cs = (.error text, rest)) : text <+: cs ∧ StartsNumeral text := by
  unfold numeral at h
  split at h
  · rename_i tail
    cases tail with
    | nil => cases hstart
    | cons c tail =>
      obtain ⟨hlead, htext⟩ := unsignedNumeral_error h
      exact ⟨htext, startsNumeral_of_prefix (.inr rfl) hstart hlead⟩
  · rename_i hminus
    cases cs with
    | nil => cases hstart
    | cons c tail =>
      have hc := isDigit_of_startsNumeral hstart fun hc => hminus tail (by rw [hc])
      obtain ⟨hlead, htext⟩ := unsignedNumeral_error h
      exact ⟨htext, startsNumeral_of_prefix (.inl rfl) hc hlead⟩

/-! ## Names -/

theorem name?_eq_none_iff {cs : List Char} :
    name? cs = none ↔ ∀ c ∈ cs.head?, c.isAlpha = false := by
  cases cs with
  | nil => simp [name?]
  | cons c tail => simp [name?]

/-! ## What is left of the input -/

theorem unsignedNumeral_suffix (sign cs : List Char) : (unsignedNumeral sign cs).2 <:+ cs := by
  unfold unsignedNumeral
  dsimp only
  split
  · rename_i after hpoint
    have hafter : after <:+ cs := by
      have hdrop := List.dropWhile_suffix Char.isDigit (l := cs)
      rw [hpoint] at hdrop
      exact (List.suffix_cons '.' after).trans hdrop
    split
    · exact hafter
    · rw [endNumeral_rest]
      exact (List.dropWhile_suffix Char.isDigit).trans hafter
  · rw [endNumeral_rest]
    exact List.dropWhile_suffix Char.isDigit

theorem numeral_suffix (cs : List Char) : (numeral cs).2 <:+ cs := by
  unfold numeral
  split
  · exact (unsignedNumeral_suffix _ _).trans (List.suffix_cons _ _)
  · exact unsignedNumeral_suffix _ _

theorem stringToken_suffix (size : Nat) (cs : List Char) : (stringToken size cs).2 <:+ cs := by
  unfold stringToken
  split
  · rename_i hbody
    obtain ⟨raw, rfl, -⟩ := stringBody_eq_ok_iff.1 hbody
    exact (List.suffix_cons _ _).trans (List.suffix_append _ _)
  · rename_i hbody
    exact (stringBody_unterminated hbody).1
  · rename_i hbody
    exact (stringBody_badEscape hbody).1

theorem functionToken_suffix (size : Nat) (cs : List Char) : (functionToken size cs).2 <:+ cs := by
  unfold functionToken
  split
  · rename_i hname
    obtain ⟨rfl, -, -⟩ := name?_eq_some_iff.1 hname
    exact List.suffix_append _ _
  · exact List.suffix_rfl

theorem plainToken_suffix (size : Nat) (c : Char) (tail : List Char) :
    (plainToken size c tail).2 <:+ c :: tail := by
  unfold plainToken
  split
  · have hnumeral := numeral_suffix (c :: tail)
    unfold numeralToken
    split <;> (rename_i heq; rwa [heq] at hnumeral)
  · split
    · exact List.suffix_cons c tail
    · split
      · rename_i hname
        obtain ⟨hcs, -, -⟩ := name?_eq_some_iff.1 hname
        rw [hcs]
        exact List.suffix_append _ _
      · exact List.suffix_rfl

theorem tagToken_suffix (size : Nat) (cs : List Char) : (tagToken size cs).2 <:+ cs := by
  unfold tagToken
  split
  · exact List.suffix_rfl
  · exact List.suffix_append ['$', '}'] _
  · exact List.suffix_cons '=' _
  · exact (stringToken_suffix size _).trans (List.suffix_cons '"' _)
  · exact (functionToken_suffix size _).trans (List.suffix_cons '@' _)
  · exact plainToken_suffix size _ _

theorem textToken_suffix (size : Nat) (cs : List Char) : (textToken size cs).2 <:+ cs := by
  unfold textToken
  split
  · exact List.suffix_rfl
  · exact List.suffix_append ['{', '$'] _
  · split
    · rename_i hrun
      obtain ⟨raw, rfl, -, -⟩ := textRun_eq_ok_iff.1 hrun
      exact List.suffix_append _ _
    · rename_i hrun
      exact (textRun_error hrun).1

theorem front_suffix (s : Scanner) : s.front.2 <:+ s.rest := by
  unfold front
  split
  · exact textToken_suffix s.size s.rest
  · exact (tagToken_suffix s.size _).trans (List.dropWhile_suffix _)

/-! ## Errors of single tokens -/

theorem shows_badEscape {input cs tail : List Char} {mode : Mode} {e : ScanError}
    (hcs : cs <:+ input) (hrest : '\\' :: tail <:+ cs)
    (hbad : ∀ c ∈ tail.head?, ∀ d, (c, d) ∉ mode.escapes)
    (h : (badEscape input.length ('\\' :: tail)).1 = .error e) :
    e.Shows input mode (input.length - cs.length) := by
  have hnext := getElem?_of_suffix (hrest.trans hcs) 1
  rw [List.getElem?_cons_succ, ← List.head?_eq_getElem?] at hnext
  cases h
  refine ⟨Nat.sub_le_sub_left hrest.length_le _, getElem?_of_suffix (hrest.trans hcs) 0, ?_, ?_⟩
  · rw [hnext, String.toList_ofList, List.drop_one, List.tail_cons, List.take_one]
  · rw [hnext]
    exact hbad

theorem stringToken_shows {input cs : List Char} {e : ScanError} (hcs : '"' :: cs <:+ input)
    (h : (stringToken input.length cs).1 = .error e) :
    e.Shows input .tag (input.length - (cs.length + 1)) := by
  unfold stringToken at h
  split at h
  · cases h
  · rename_i hbody
    cases h
    refine ⟨rfl, getElem?_of_suffix hcs 0, fun run rest hafter => ?_⟩
    rw [drop_succ_of_suffix hcs] at hafter
    exact (stringBody_unterminated hbody).2 run rest hafter
  · rename_i hbody
    obtain ⟨hsuffix, tail, rfl, hbad⟩ := stringBody_badEscape hbody
    exact shows_badEscape hcs (hsuffix.trans (List.suffix_cons '"' cs)) hbad h

theorem functionToken_shows {input cs : List Char} {e : ScanError} (hcs : '@' :: cs <:+ input)
    (h : (functionToken input.length cs).1 = .error e) :
    e.Shows input .tag (input.length - (cs.length + 1)) := by
  unfold functionToken at h
  split at h
  · cases h
  · rename_i hname
    cases h
    have hnext := getElem?_of_suffix hcs 1
    rw [List.getElem?_cons_succ, ← List.head?_eq_getElem?] at hnext
    refine ⟨rfl, getElem?_of_suffix hcs 0, ?_⟩
    rw [← List.length_cons, hnext]
    exact name?_eq_none_iff.1 hname

theorem numeralToken_shows {input cs : List Char} {e : ScanError} (hcs : cs <:+ input)
    (hstart : startsNumeral cs = true) (h : (numeralToken input.length cs).1 = .error e) :
    e.Shows input .tag (input.length - cs.length) := by
  unfold numeralToken at h
  split at h
  · cases h
  · rename_i hnumeral
    cases h
    obtain ⟨hlead, hstarts⟩ := numeral_error hstart hnumeral
    refine ⟨rfl, ?_, ?_⟩
    · rw [← List.suffix_iff_eq_drop.1 hcs, String.toList_ofList]
      exact (List.prefix_iff_eq_take.1 hlead).symm
    · rw [String.toList_ofList]
      exact hstarts

theorem plainToken_shows {input tail : List Char} {c : Char} {e : ScanError}
    (hcs : c :: tail <:+ input) (h : (plainToken input.length c tail).1 = .error e) :
    e.Shows input .tag (input.length - (tail.length + 1)) := by
  unfold plainToken at h
  split at h
  · rename_i hstart
    exact numeralToken_shows hcs hstart h
  · split at h
    · cases h
    · split at h
      · cases h
      · cases h
        exact ⟨rfl, getElem?_of_suffix hcs 0⟩

theorem tagToken_shows {input cs : List Char} {e : ScanError} (hcs : cs <:+ input)
    (h : (tagToken input.length cs).1 = .error e) :
    e.Shows input .tag (input.length - cs.length) := by
  unfold tagToken at h
  split at h
  · cases h
  · cases h
  · cases h
  · exact stringToken_shows hcs h
  · exact functionToken_shows hcs h
  · exact plainToken_shows hcs h

theorem textToken_shows {input cs : List Char} {e : ScanError} (hcs : cs <:+ input)
    (h : (textToken input.length cs).1 = .error e) :
    e.Shows input .text (input.length - cs.length) := by
  unfold textToken at h
  split at h
  · cases h
  · cases h
  · split at h
    · cases h
    · rename_i hrun
      obtain ⟨hsuffix, tail, rfl, hbad⟩ := textRun_error hrun
      exact shows_badEscape hcs hsuffix hbad h

/-- Where the next token starts: the blanks before it are not part of it. -/
def tokenStart (s : Scanner) : Nat :=
  match s.mode with
  | .text => s.size - s.rest.length
  | .tag => s.size - (s.rest.dropWhile Text.isBlank).length

theorem front_shows {s : Scanner} {input : List Char} {e : ScanError}
    (hsize : s.size = input.length) (hrest : s.rest <:+ input) (h : s.front.1 = .error e) :
    e.Shows input s.mode s.tokenStart := by
  unfold front at h
  unfold tokenStart
  rw [hsize] at h ⊢
  split at h
  · rename_i hmode
    rw [hmode]
    exact textToken_shows hrest h
  · rename_i hmode
    rw [hmode]
    exact tagToken_shows ((List.dropWhile_suffix _).trans hrest) h

/-! ## Errors of many calls -/

/-- The scanner behind a number of calls, of which any may have failed. -/
def afterCalls (source : String) : Nat → Scanner
  | 0 => .ofString source
  | n + 1 => (afterCalls source n).next.2

theorem next_size (s : Scanner) : s.next.2.size = s.size := by
  cases hs : s.finished with
  | false => rw [next_eq_front hs]
  | true => rw [Scanner.next, hs]; rfl

theorem next_suffix (s : Scanner) : s.next.2.rest <:+ s.rest := by
  cases hs : s.finished with
  | false =>
    rw [next_eq_front hs]
    exact front_suffix s
  | true =>
    rw [Scanner.next, hs]
    exact List.suffix_rfl

theorem afterCalls_inside (source : String) (n : Nat) :
    (afterCalls source n).size = source.toList.length ∧
      (afterCalls source n).rest <:+ source.toList := by
  induction n with
  | zero => exact ⟨rfl, List.suffix_rfl⟩
  | succ n ih =>
    obtain ⟨hsize, hrest⟩ := ih
    exact ⟨(next_size _).trans hsize, (next_suffix _).trans hrest⟩

theorem shows_of_next {source : String} {n : Nat} {e : ScanError}
    (hs : (afterCalls source n).finished = false) (h : (afterCalls source n).next.1 = .error e) :
    e.Shows source.toList (afterCalls source n).mode (afterCalls source n).tokenStart := by
  obtain ⟨hsize, hrest⟩ := afterCalls_inside source n
  rw [next_eq_front hs] at h
  exact front_shows hsize hrest h

end Scanner

theorem ScanError.Shows.offset_lt {input : List Char} {mode : Mode} {start : Nat} {e : ScanError}
    (h : e.Shows input mode start) :
    ∃ offset, e.offset? = some offset ∧ offset < input.length := by
  cases e with
  | invalidEscape offset found => exact ⟨offset, rfl, (List.getElem?_eq_some_iff.1 h.2.1).1⟩
  | unterminatedString offset => exact ⟨offset, rfl, (List.getElem?_eq_some_iff.1 h.2.1).1⟩
  | malformedNumber offset text =>
    obtain ⟨-, htext, c, tail, -, hstart⟩ := h
    refine ⟨offset, rfl, Nat.lt_of_not_le fun hle => ?_⟩
    rw [List.drop_eq_nil_of_le hle, List.take_nil] at htext
    rw [← htext] at hstart
    simp at hstart
  | invalidIdentifier offset => exact ⟨offset, rfl, (List.getElem?_eq_some_iff.1 h.2.1).1⟩
  | unrecognizedCharacter offset found =>
    exact ⟨offset, rfl, (List.getElem?_eq_some_iff.1 h.2).1⟩
  | pastEof => cases h

/-- Whatever tokens and errors lie behind the scanner, the next error is either that the end of the
input was reached before, or it gives a place in the input at which what it says can be seen. -/
theorem error_seen_in_source {source : String} {n : Nat} {e : ScanError}
    (h : (afterCalls source n).next.1 = .error e) :
    ((afterCalls source n).finished = true ∧ e = .pastEof) ∨
      (∃ offset, e.offset? = some offset ∧ offset < source.toList.length) ∧
        e.Shows source.toList (afterCalls source n).mode (afterCalls source n).tokenStart := by
  cases hs : (afterCalls source n).finished with
  | true =>
    rw [Scanner.next, hs] at h
    cases h
    exact .inl ⟨rfl, rfl⟩
  | false =>
    have hshows := shows_of_next hs h
    exact .inr ⟨hshows.offset_lt, hshows⟩

/-- The numeral stands where the error before it, a function without a name, left the scanner. -/
theorem error_seen_in_source_again :
    (afterCalls "\x7b$@-5.$\x7d" 2).next.1 = .error (.malformedNumber 3 "-5.") ∧
      (ScanError.malformedNumber 3 "-5.").Shows "\x7b$@-5.$\x7d".toList .tag 3 := by
  have h : (afterCalls "\x7b$@-5.$\x7d" 2).next.1 = .error (.malformedNumber 3 "-5.") := by
    decide +kernel
  refine ⟨h, ?_⟩
  rcases error_seen_in_source h with ⟨-, hpast⟩ | ⟨-, hshows⟩
  · cases hpast
  · exact hshows

end TagTemplate
