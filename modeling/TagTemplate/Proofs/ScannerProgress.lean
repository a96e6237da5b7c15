import TagTemplate.Proofs.ErrorPlaces
import TagTemplate.Template.Reader

/-! The scanner gets on. No call moves it back, a token other than the end moves it forward, and the
end leaves nothing to do; this holds from wherever the calls before have left it, errors included.
So whatever takes tokens from it one by one, until there is an error or the end, comes to an answer
within one call more than there are characters. -/

namespace TagTemplate

namespace Scanner

/-! ## One call -/

theorem position_eq {s : Scanner} {n : Nat} (hsize : s.size = n) :
    s.position = n - s.rest.length := by
  rw [position, hsize]

theorem position_le_size (s : Scanner) : s.position ≤ s.size := Nat.sub_le _ _

/-- No call moves the scanner back. -/
theorem position_le_next (s : Scanner) : s.position ≤ s.next.2.position := by
  have hshorter := (next_suffix s).length_le
  rw [position, position_eq (next_size s)]
  omega

/-- A token takes a character of the input at least. -/
theorem position_lt_next {s : Scanner} {t : Token} (hinside : s.rest.length ≤ s.size)
    (hnext : s.next.1 = .ok t) (ht : t ≠ .eof) : s.position < s.next.2.position := by
  have hshorter : s.next.2.rest.length < s.rest.length := length_next (Prod.ext hnext rfl) ht
  rw [position, position_eq (next_size s)]
  omega

theorem next_of_finished {s : Scanner} (hs : s.finished = true) :
    s.next = (.error .pastEof, s) := by
  rw [Scanner.next, hs]
  rfl

theorem finished_of_next_eof {s : Scanner} (hnext : s.next.1 = .ok .eof) :
    s.next.2.finished = true := by
  cases hs : s.finished with
  | true =>
    rw [next_of_finished hs] at hnext
    cases hnext
  | false =>
    rw [next_eq_front hs] at hnext ⊢
    have hfront : s.front.1 = .ok .eof := hnext
    rw [hfront]

/-! ## Many calls -/

theorem position_afterCalls_mono (source : String) :
    Monotone fun n => (afterCalls source n).position :=
  monotone_nat_of_le_succ fun n => position_le_next (afterCalls source n)

/-- Behind the end every call is the same error, and the scanner stays as it is. -/
theorem afterCalls_of_finished {source : String} {n : Nat}
    (h : (afterCalls source n).finished = true) {k : Nat} (hk : n ≤ k) :
    afterCalls source k = afterCalls source n := by
  induction k, hk using Nat.le_induction with
  | base => rfl
  | succ k _ ih => rw [afterCalls, ih, next_of_finished h]

/-! ## Loops over the tokens -/

/-- What a loop over the tokens does with a token, at the end of the input, and with an error of the
scanner. -/
structure Taker (ρ ε α : Type) where
  take : ρ → Token → Except ε ρ
  finish : ρ → Except ε α
  fail : ScanError → ε

namespace Taker

variable {ρ ε α : Type}

/-- The answer of the loop, if it comes to one within so many calls of the scanner. -/
def within (taker : Taker ρ ε α) : Nat → Scanner → ρ → Option (Except ε α)
  | 0, _, _ => none
  | calls + 1, s, r =>
    match s.next with
    | (.error e, _) => some (.error (taker.fail e))
    | (.ok .eof, _) => some (taker.finish r)
    | (.ok t, s') =>
      match taker.take r t with
      | .ok r' => taker.within calls s' r'
      | .error e => some (.error e)

/-- The same from all the tokens at once. -/
def answer (taker : Taker ρ ε α) (s : Scanner) (r : ρ) : Except ε α := do
  let (tokens, stop) := s.tokens
  let r ← tokens.foldlM taker.take r
  match stop with
  | some e => throw (taker.fail e)
  | none => taker.finish r

theorem answer_of_token (taker : Taker ρ ε α) {s s' : Scanner} {t : Token}
    (h : s.next = (.ok t, s')) (ht : t ≠ .eof) (r : ρ) :
    taker.answer s r = taker.take r t >>= taker.answer s' := by
  unfold answer
  rw [tokens_of_token h ht]
  simp only [List.foldlM_cons]
  cases taker.take r t <;> rfl

/-- One call more than there are characters left is enough for any loop. -/
theorem within_eq_answer (taker : Taker ρ ε α) {calls : Nat} {s : Scanner}
    (h : s.rest.length < calls) (r : ρ) : taker.within calls s r = some (taker.answer s r) := by
  induction calls generalizing s r with
  | zero => exact absurd h (Nat.not_lt_zero _)
  | succ calls ih =>
    rcases hnext : s.next with ⟨result, s'⟩
    cases result with
    | error e =>
      rw [within, hnext, answer, tokens_of_error hnext]
      rfl
    | ok t =>
      by_cases ht : t = .eof
      · subst ht
        rw [within, hnext, answer, tokens_of_eof hnext]
        rfl
      · -- the token has taken a character, so one call less is still enough behind it
        have hshorter := length_next hnext ht
        have hwithin : taker.within (calls + 1) s r = match taker.take r t with
            | .ok r' => taker.within calls s' r'
            | .error e => some (.error e) := by
          rw [within, hnext]
          cases t <;> first | rfl | exact absurd rfl ht
        rw [hwithin, answer_of_token taker hnext ht]
        cases taker.take r t with
        | error e => rfl
        | ok r' => exact ih (by omega) r'

end Taker

/-- Puts one token behind the other, and the end behind all of them. -/
def collector : Taker (List Token) ScanError (List Token) where
  take ts t := .ok (ts ++ [t])
  finish ts := .ok (ts ++ [.eof])
  fail e := e

theorem foldlM_collector (ts before : List Token) :
    ts.foldlM collector.take before = .ok (before ++ ts) := by
  induction ts generalizing before with
  | nil => rw [List.append_nil]; rfl
  | cons t ts ih =>
    rw [List.foldlM_cons, List.append_cons, ← ih]
    rfl

theorem answer_collector (source : String) :
    collector.answer (.ofString source) [] = tokenize source := by
  unfold Taker.answer tokenize
  rcases (ofString source).tokens with ⟨ts, stop⟩
  dsimp only
  rw [foldlM_collector]
  cases stop <;> rfl

theorem length_tokens_le (s : Scanner) : s.tokens.1.length ≤ s.rest.length := by
  rcases hnext : s.next with ⟨result, s'⟩
  cases result with
  | error e => simp [tokens_of_error hnext]
  | ok t =>
    by_cases ht : t = .eof
    · subst ht
      simp [tokens_of_eof hnext]
    · have hshorter := length_next hnext ht
      have hrest := length_tokens_le s'
      rw [tokens_of_token hnext ht, List.length_cons]
      omega
termination_by s.rest.length

theorem length_tokenize_le {source : String} {ts : List Token} (h : tokenize source = .ok ts) :
    ts.length ≤ source.toList.length + 1 := by
  have hlength := length_tokens_le (ofString source)
  unfold tokenize at h
  split at h
  · rename_i us htokens
    cases h
    rw [htokens] at hlength
    rw [List.length_append]
    exact Nat.succ_le_succ hlength
  · cases h

end Scanner

/-- Feeds a reader. -/
def Template.feeder : Scanner.Taker Template.Reader ParseError Template where
  take := Template.Reader.feed
  finish := Template.Reader.finish
  fail := .scan

open Scanner

/-- Whatever tokens and errors lie behind the scanner, a call does not move it back or out of the
input, and one that gives a token other than the end moves it forward; after the end every call is
the same error and changes nothing. So the tokens of a source, and the template that it is read as,
are there after one call more than there are characters at most. -/
theorem scanner_gets_on (source : String) :
    (Monotone fun n => (afterCalls source n).position) ∧
    (∀ n, (afterCalls source n).position ≤ source.toList.length) ∧
    (∀ n t, (afterCalls source n).next.1 = .ok t → t ≠ .eof →
      (afterCalls source n).position < (afterCalls source (n + 1)).position) ∧
    (∀ n, (afterCalls source n).next.1 = .ok .eof → ∀ k, n < k →
      (afterCalls source k).next = (.error .pastEof, afterCalls source (n + 1))) ∧
    (∀ calls, source.toList.length < calls →
      collector.within calls (.ofString source) [] = some (tokenize source) ∧
      Template.feeder.within calls (.ofString source) .start = some (Template.parse source)) ∧
    ∀ ts, tokenize source = .ok ts → ts.length ≤ source.toList.length + 1 := by
  refine ⟨position_afterCalls_mono source, fun n => ?inside, fun n t hnext ht => ?forward,
    fun n hnext k hk => ?finished, fun calls hcalls => ?ends, fun ts => length_tokenize_le⟩
  case inside =>
    rw [← (afterCalls_inside source n).1]
    exact position_le_size _
  case forward =>
    obtain ⟨hsize, hsuffix⟩ := afterCalls_inside source n
    exact position_lt_next (hsize ▸ hsuffix.length_le) hnext ht
  case finished =>
    have hend : (afterCalls source (n + 1)).finished = true := finished_of_next_eof hnext
    rw [afterCalls_of_finished hend hk, next_of_finished hend]
  case ends =>
    have htokens := collector.within_eq_answer (s := .ofString source) hcalls []
    rw [answer_collector] at htokens
    exact ⟨htokens, Template.feeder.within_eq_answer (s := .ofString source) hcalls .start⟩

/-- The second call fails behind the `@`, and the calls after it still come to the end. -/
theorem scanner_gets_on_afterError :
    ((afterCalls "\x7b$@1" 1).next.1 = .error (.invalidIdentifier 2)) ∧
    ((afterCalls "\x7b$@1" 2).next.1 = .ok (.element (.integer 1)) ∧
      Token.element (.integer 1) ≠ .eof ∧
      (afterCalls "\x7b$@1" 2).position < (afterCalls "\x7b$@1" 3).position) ∧
    ((afterCalls "\x7b$@1" 3).next.1 = .ok .eof ∧ 3 < 9 ∧
      (afterCalls "\x7b$@1" 9).next = (.error .pastEof, afterCalls "\x7b$@1" 4)) ∧
    "\x7b$@1".toList.length < 5 ∧
      Template.feeder.within 5 (.ofString "\x7b$@1") .start =
        some (.error (.scan (.invalidIdentifier 2))) := by
  obtain ⟨-, -, hforward, hend, hanswers, -⟩ := scanner_gets_on "\x7b$@1"
  have herror : (afterCalls "\x7b$@1" 1).next.1 = .error (.invalidIdentifier 2) := by
    decide +kernel
  have htoken : (afterCalls "\x7b$@1" 2).next.1 = .ok (.element (.integer 1)) := by
    decide +kernel
  have hnext : (afterCalls "\x7b$@1" 3).next.1 = .ok .eof := by decide +kernel
  have hne : Token.element (.integer 1) ≠ .eof := by decide
  have hlength : "\x7b$@1".toList.length < 5 := by decide
  have htokens : (ofString "\x7b$@1").tokens = ([.tagOpen], some (.invalidIdentifier 2)) := by
    decide +kernel
  have hparse : Template.parse "\x7b$@1" = .error (.scan (.invalidIdentifier 2)) := by
    rw [Template.parse, htokens]
    rfl
  refine ⟨herror, ⟨htoken, hne, hforward 2 _ htoken hne⟩,
    ⟨hnext, by decide, hend 3 hnext 9 (by decide)⟩, hlength, ?_⟩
  rw [(hanswers 5 hlength).2, hparse]

end TagTemplate
