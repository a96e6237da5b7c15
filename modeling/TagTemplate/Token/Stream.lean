import TagTemplate.Token.Scanner

/-! The tokens of a whole template. Every token but the last takes at least one character, so
scanning ends. -/

namespace TagTemplate.Scanner

theorem length_withFirst {ε : Type} {c : Char} {read : Except ε (List Char × List Char)}
    {run rest : List Char} {n : Nat} (h : withFirst c read = .ok (run, rest))
    (hread : ∀ tail, read = .ok (tail, rest) → rest.length ≤ n) : rest.length ≤ n := by
  obtain ⟨tail, htail, -⟩ := withFirst_eq_ok_iff.1 h
  exact hread tail htail

theorem length_textRun {cs run rest : List Char} (h : textRun cs = .ok (run, rest)) :
    rest.length ≤ cs.length := by
  fun_induction textRun cs generalizing run rest with
  | case1 => cases h; exact Nat.le_refl _
  | case2 => cases h; exact Nat.le_refl _
  | case3 tail ih | case4 tail ih =>
    have := length_withFirst h fun _ htail => ih htail
    simp only [List.length_cons]; omega
  | case5 => cases h
  | case6 c tail _ _ _ _ ih =>
    have := length_withFirst h fun _ htail => ih htail
    simp only [List.length_cons]; omega

/-- A run that starts neither at a delimiter nor at the end takes at least one character. -/
theorem length_textRun_lt {cs run rest : List Char} (hne : cs ≠ [])
    (hopen : ∀ tail, cs ≠ '{' :: '$' :: tail) (h : textRun cs = .ok (run, rest)) :
    rest.length < cs.length := by
  unfold textRun at h
  split at h
  · exact absurd rfl hne
  · exact absurd rfl (hopen _)
  · have := length_withFirst h fun _ htail => length_textRun htail
    simp only [List.length_cons]; omega
  · have := length_withFirst h fun _ htail => length_textRun htail
    simp only [List.length_cons]; omega
  · cases h
  · have := length_withFirst h fun _ htail => length_textRun htail
    simp only [List.length_cons]; omega

theorem length_stringBody {cs body rest : List Char} (h : stringBody cs = .ok (body, rest)) :
    rest.length ≤ cs.length := by
  fun_induction stringBody cs generalizing body rest with
  | case1 => cases h
  | case2 => cases h; simp
  | case3 => cases h
  | case4 letter tail c hc ih =>
    have := length_withFirst h fun _ htail => ih htail
    simp only [List.length_cons]; omega
  | case5 => cases h
  | case6 c tail _ _ _ ih =>
    have := length_withFirst h fun _ htail => ih htail
    simp only [List.length_cons]; omega

theorem length_name? {cs name rest : List Char} (h : name? cs = some (name, rest)) :
    rest.length < cs.length := by
  cases cs with
  | nil => cases h
  | cons c tail =>
    simp only [name?] at h
    split at h
    · cases h; exact Nat.lt_succ_of_le (List.dropWhile_suffix _).length_le
    · cases h

theorem endNumeral_rest (pointed : Bool) (text rest : List Char) :
    (endNumeral pointed text rest).2 = rest := by
  unfold endNumeral
  split
  · rfl
  · split <;> rfl

theorem length_unsignedNumeral (sign cs : List Char) :
    (unsignedNumeral sign cs).2.length ≤ (cs.dropWhile Char.isDigit).length := by
  unfold unsignedNumeral
  dsimp only
  split
  · rename_i rest hpoint
    have hrest : (rest.dropWhile Char.isDigit).length ≤ rest.length :=
      (List.dropWhile_suffix _).length_le
    rw [hpoint, List.length_cons]
    split
    · exact Nat.le_succ _
    · rw [endNumeral_rest]; omega
  · exact Nat.le_of_eq (congrArg List.length (endNumeral_rest _ _ _))

theorem isDigit_of_startsNumeral {c : Char} {rest : List Char}
    (h : startsNumeral (c :: rest) = true) (hminus : c ≠ '-') : c.isDigit = true := by
  unfold startsNumeral at h
  split at h
  · rename_i heq; exact absurd (List.cons.inj heq).1 hminus
  · rename_i heq; rwa [(List.cons.inj heq).1]
  · cases h

theorem length_numeral {cs : List Char} (h : startsNumeral cs = true) :
    (numeral cs).2.length < cs.length := by
  unfold numeral
  split
  · rename_i rest
    exact Nat.lt_succ_of_le
      (Nat.le_trans (length_unsignedNumeral ['-'] rest) (List.dropWhile_suffix _).length_le)
  · rename_i hminus
    cases cs with
    | nil => cases h
    | cons c rest =>
      have hc := isDigit_of_startsNumeral h fun hc => hminus rest (by rw [hc])
      have := length_unsignedNumeral [] (c :: rest)
      rw [List.dropWhile_cons_of_pos hc] at this
      exact Nat.lt_succ_of_le (Nat.le_trans this (List.dropWhile_suffix _).length_le)

theorem length_stringToken {size : Nat} {cs rest : List Char} {t : Token}
    (h : stringToken size cs = (.ok t, rest)) : rest.length ≤ cs.length := by
  unfold stringToken at h
  split at h
  · rename_i hbody; cases h; exact length_stringBody hbody
  · cases h
  · cases h

theorem length_functionToken {size : Nat} {cs rest : List Char} {t : Token}
    (h : functionToken size cs = (.ok t, rest)) : rest.length ≤ cs.length := by
  unfold functionToken at h
  split at h
  · rename_i hname; cases h; exact Nat.le_of_lt (length_name? hname)
  · cases h

theorem length_plainToken {size : Nat} {c : Char} {tail rest : List Char} {t : Token}
    (h : plainToken size c tail = (.ok t, rest)) : rest.length < (c :: tail).length := by
  unfold plainToken at h
  split at h
  · rename_i hstart
    have := length_numeral hstart
    unfold numeralToken at h
    split at h
    · rename_i hnum; cases h; rwa [hnum] at this
    · cases h
  · split at h
    · cases h; exact Nat.lt_succ_self _
    · split at h
      · rename_i hname; cases h; exact length_name? hname
      · cases h

theorem length_tagToken {size : Nat} {cs rest : List Char} {t : Token}
    (h : tagToken size cs = (.ok t, rest)) (ht : t ≠ .eof) : rest.length < cs.length := by
  unfold tagToken at h
  split at h
  · cases h; exact absurd rfl ht
  · cases h; simp only [List.length_cons]; omega
  · cases h; exact Nat.lt_succ_self _
  · exact Nat.lt_succ_of_le (length_stringToken h)
  · exact Nat.lt_succ_of_le (length_functionToken h)
  · exact length_plainToken h

theorem length_textToken {size : Nat} {cs rest : List Char} {t : Token}
    (h : textToken size cs = (.ok t, rest)) (ht : t ≠ .eof) : rest.length < cs.length := by
  unfold textToken at h
  split at h
  · cases h; exact absurd rfl ht
  · cases h; simp only [List.length_cons]; omega
  · rename_i hne hopen
    split at h
    · rename_i hrun
      cases h
      exact length_textRun_lt hne hopen hrun
    · cases h

theorem length_next {s next : Scanner} {t : Token} (h : s.next = (.ok t, next)) (ht : t ≠ .eof) :
    next.rest.length < s.rest.length := by
  unfold Scanner.next at h
  split at h
  · cases h
  · cases hmode : s.mode with
    | text =>
      rw [hmode] at h
      obtain ⟨hres, rfl⟩ := Prod.mk.inj h
      exact length_textToken (Prod.ext hres rfl) ht
    | tag =>
      rw [hmode] at h
      obtain ⟨hres, rfl⟩ := Prod.mk.inj h
      exact Nat.lt_of_lt_of_le (length_tagToken (Prod.ext hres rfl) ht)
        (List.dropWhile_suffix _).length_le

/-- The tokens before the end of the input, or before the error that stops the scanner. -/
def tokens (s : Scanner) : List Token × Option ScanError :=
  match h : s.next with
  | (.error e, _) => ([], some e)
  | (.ok t, rest) =>
    if ht : t = .eof then ([], none)
    else
      have := length_next h ht
      let (ts, stop) := rest.tokens
      (t :: ts, stop)
termination_by s.rest.length

end TagTemplate.Scanner

namespace TagTemplate

/-- The tokens of a template, the end of the input included. -/
def tokenize (source : String) : Except ScanError (List Token) :=
  match (Scanner.ofString source).tokens with
  | (ts, none) => .ok (ts ++ [.eof])
  | (_, some e) => .error e

end TagTemplate
