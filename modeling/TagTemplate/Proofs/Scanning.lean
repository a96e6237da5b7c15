import Mathlib.Data.List.TakeWhile
import TagTemplate.Proofs.Spelling

/-! The tokens of an input. `Takes` is one token at the front of the input, with the blanks before
it; `Scans` is all of them, and the scanner has no error exactly where they exist. -/

namespace TagTemplate.Scanner

/-! ## One token -/

def IsBlanks (cs : List Char) : Prop := ∀ c ∈ cs, Text.isBlank c = true

theorem isBlanks_nil : IsBlanks [] := List.forall_mem_nil _

theorem isBlanks_space : IsBlanks [' '] := by
  intro c hc
  rw [List.mem_singleton.1 hc]
  decide

/-- One token: the mode, the input before it, the token and the input behind it. -/
inductive Takes : Mode → List Char → Token → List Char → Prop
  | tagOpen {rest : List Char} : Takes .text ('{' :: '$' :: rest) .tagOpen rest
  | text {raw run rest : List Char} : raw ≠ [] → Literal raw run → Opens rest →
      Takes .text (raw ++ rest) (.text (String.ofList run)) rest
  | inTag {blanks s rest : List Char} {t : Token} : IsBlanks blanks → Spells rest s t →
      Takes .tag (blanks ++ (s ++ rest)) t rest

/-- Nothing is left to read; in a tag blanks may be. -/
def Exhausted : Mode → List Char → Prop
  | .text, cs => cs = []
  | .tag, cs => IsBlanks cs

theorem Literal.not_opening {raw run rest : List Char} (h : Literal raw run) (hne : raw ≠ [])
    (hrest : Opens rest) (tail : List Char) : raw ++ rest ≠ '{' :: '$' :: tail := by
  intro heq
  cases h with
  | nil => exact hne rfl
  | escape => cases heq
  | @plain c raw run hc hbrace _ =>
    obtain ⟨rfl, heq⟩ := List.cons.inj heq
    cases raw with
    | nil =>
      rcases hrest with rfl | ⟨after, rfl⟩
      · cases heq
      · cases heq
    | cons d raw =>
      cases heq
      exact hbrace rfl rfl

theorem textToken_eq_ok_iff {size : Nat} {cs rest : List Char} {t : Token} (ht : t ≠ .eof) :
    textToken size cs = (.ok t, rest) ↔ Takes .text cs t rest := by
  refine ⟨fun h => ?_, fun h => ?_⟩
  · unfold textToken at h
    split at h
    · cases h
      exact absurd rfl ht
    · cases h
      exact .tagOpen
    · rename_i hne hopen
      split at h
      · rename_i hrun
        cases h
        obtain ⟨raw, rfl, hraw, hrest⟩ := textRun_eq_ok_iff.1 hrun
        refine .text ?_ hraw hrest
        intro heq
        subst heq
        rcases hrest with rfl | ⟨after, rfl⟩
        · exact hne rfl
        · exact hopen after rfl
      · cases h
  · cases h with
    | tagOpen => rfl
    | @text raw run rest hne hraw hrest =>
      have hrun : textRun (raw ++ rest) = .ok (run, rest) :=
        textRun_eq_ok_iff.2 ⟨raw, rfl, hraw, hrest⟩
      unfold textToken
      split
      · rename_i heq
        exact absurd (List.append_eq_nil_iff.1 heq).1 hne
      · rename_i tail heq
        exact absurd heq (hraw.not_opening hne hrest tail)
      · rw [hrun]

theorem tagToken_blanks {size : Nat} {cs rest : List Char} {t : Token} (ht : t ≠ .eof) :
    tagToken size (cs.dropWhile Text.isBlank) = (.ok t, rest) ↔ Takes .tag cs t rest := by
  rw [tagToken_eq_ok_iff ht]
  refine ⟨fun h => ?_, fun h => ?_⟩
  · obtain ⟨s, hafter, hs⟩ := h
    have hspan : cs.takeWhile Text.isBlank = _ ∧ cs.dropWhile Text.isBlank = _ := ⟨rfl, hafter⟩
    obtain ⟨hcs, hblanks, -⟩ := takeWhile_dropWhile_iff.1 hspan
    rw [hcs]
    exact .inTag hblanks hs
  · cases h with
    | @inTag blanks s rest t hblanks hs =>
      obtain ⟨c, tail, rfl, hc⟩ := hs.head
      have hstop : StopsAt Text.isBlank (c :: tail ++ rest) := stopsAt_cons.2 hc
      exact ⟨_, (takeWhile_dropWhile_iff.2 ⟨rfl, hblanks, hstop⟩).2, hs⟩

theorem textToken_eof_iff {size : Nat} {cs : List Char} :
    (textToken size cs).1 = .ok .eof ↔ cs = [] := by
  constructor
  · intro h
    unfold textToken at h
    split at h
    · rfl
    · cases h
    · split at h <;> cases h
  · intro heq
    subst heq
    rfl

theorem tokenOfName_ne_eof (name : List Char) : tokenOfName name ≠ .eof := by
  unfold tokenOfName
  split <;> exact nofun

theorem tagToken_eof_iff {size : Nat} {cs : List Char} :
    (tagToken size cs).1 = .ok .eof ↔ cs = [] := by
  constructor
  · intro h
    unfold tagToken at h
    split at h
    · rfl
    · cases h
    · cases h
    · unfold stringToken at h
      split at h <;> cases h
    · unfold functionToken at h
      split at h <;> cases h
    · unfold plainToken numeralToken at h
      split at h
      · split at h <;> cases h
      · split at h
        · cases h
        · split at h
          · exact absurd (Except.ok.inj h) (tokenOfName_ne_eof _)
          · cases h
  · intro heq
    subst heq
    rfl

/-- What is read off the input in the scanner's mode. -/
def front (s : Scanner) : Except ScanError Token × List Char :=
  match s.mode with
  | .text => textToken s.size s.rest
  | .tag => tagToken s.size (s.rest.dropWhile Text.isBlank)

theorem front_eq_ok_iff {s : Scanner} {rest : List Char} {t : Token} (ht : t ≠ .eof) :
    s.front = (.ok t, rest) ↔ Takes s.mode s.rest t rest := by
  unfold front
  split
  · rename_i hmode
    rw [hmode]
    exact textToken_eq_ok_iff ht
  · rename_i hmode
    rw [hmode]
    exact tagToken_blanks ht

theorem front_eof_iff {s : Scanner} : s.front.1 = .ok .eof ↔ Exhausted s.mode s.rest := by
  unfold front
  split
  · rename_i hmode
    rw [hmode]
    exact textToken_eof_iff
  · rename_i hmode
    rw [hmode, tagToken_eof_iff]
    exact List.dropWhile_eq_nil_iff

theorem next_eq_front {s : Scanner} (hs : s.finished = false) :
    s.next = (s.front.1, ⟨s.size, s.front.2, s.mode.after s.front.1,
      s.front.1 matches .ok .eof⟩) := by
  unfold Scanner.next
  rw [hs]
  rfl

theorem next_eq_ok_iff {s s' : Scanner} {t : Token} (hs : s.finished = false) (ht : t ≠ .eof) :
    s.next = (.ok t, s') ↔ ∃ rest, Takes s.mode s.rest t rest ∧
      s' = ⟨s.size, rest, s.mode.after (.ok t), false⟩ := by
  rw [next_eq_front hs]
  refine ⟨fun h => ?_, fun h => ?_⟩
  · obtain ⟨hfront, rfl⟩ := Prod.mk.inj h
    refine ⟨s.front.2, (front_eq_ok_iff ht).1 (Prod.ext hfront rfl), ?_⟩
    rw [hfront]
    cases t <;> first | rfl | exact absurd rfl ht
  · obtain ⟨rest, htakes, rfl⟩ := h
    rw [(front_eq_ok_iff ht).2 htakes]
    cases t <;> first | rfl | exact absurd rfl ht

theorem next_eof_iff {s : Scanner} (hs : s.finished = false) :
    s.next.1 = .ok .eof ↔ Exhausted s.mode s.rest := by
  rw [next_eq_front hs]
  exact front_eof_iff

/-! ## Whole inputs -/

theorem tokens_of_error {s s' : Scanner} {e : ScanError} (h : s.next = (.error e, s')) :
    s.tokens = ([], some e) := by
  rw [tokens]
  split <;> (rename_i heq; rw [h] at heq; cases heq)
  rfl

theorem tokens_of_eof {s s' : Scanner} (h : s.next = (.ok .eof, s')) : s.tokens = ([], none) := by
  rw [tokens]
  split <;> (rename_i heq; rw [h] at heq; cases heq)
  rfl

theorem tokens_of_token {s s' : Scanner} {t : Token} (h : s.next = (.ok t, s')) (ht : t ≠ .eof) :
    s.tokens = (t :: s'.tokens.1, s'.tokens.2) := by
  rw [tokens]
  split <;> (rename_i heq; rw [h] at heq; cases heq)
  rw [dif_neg ht]

theorem tokens_eq_nil_iff {s : Scanner} : s.tokens = ([], none) ↔ s.next.1 = .ok .eof := by
  rcases hnext : s.next with ⟨result, s'⟩
  cases result with
  | error e => simp [tokens_of_error hnext]
  | ok t =>
    by_cases ht : t = .eof
    · subst ht
      simp [tokens_of_eof hnext]
    · simp [tokens_of_token hnext ht, ht]

theorem tokens_eq_cons_iff {s : Scanner} {t : Token} {ts : List Token} :
    s.tokens = (t :: ts, none) ↔
      t ≠ .eof ∧ ∃ s', s.next = (.ok t, s') ∧ s'.tokens = (ts, none) := by
  refine ⟨fun h => ?_, fun h => ?_⟩
  · rcases hnext : s.next with ⟨result, s'⟩
    cases result with
    | error e =>
      rw [tokens_of_error hnext] at h
      cases h
    | ok t' =>
      by_cases ht : t' = .eof
      · subst ht
        rw [tokens_of_eof hnext] at h
        cases h
      · rw [tokens_of_token hnext ht] at h
        obtain ⟨hcons, hstop⟩ := Prod.mk.inj h
        obtain ⟨rfl, rfl⟩ := List.cons.inj hcons
        exact ⟨ht, s', rfl, Prod.ext rfl hstop⟩
  · obtain ⟨ht, s', hnext, hts⟩ := h
    rw [tokens_of_token hnext ht, hts]

/-- All the tokens of an input. -/
inductive Scans : Mode → List Char → List Token → Prop
  | done {mode : Mode} {cs : List Char} : Exhausted mode cs → Scans mode cs []
  | step {mode : Mode} {cs rest : List Char} {t : Token} {ts : List Token} :
      Takes mode cs t rest → Scans (mode.after (.ok t)) rest ts → Scans mode cs (t :: ts)

theorem Spells.ne_eof {s rest : List Char} {t : Token} (h : Spells rest s t) : t ≠ .eof := by
  cases h with
  | name => exact tokenOfName_ne_eof _
  | _ => exact nofun

theorem Takes.ne_eof {mode : Mode} {cs rest : List Char} {t : Token} (h : Takes mode cs t rest) :
    t ≠ .eof := by
  cases h with
  | inTag _ hs => exact hs.ne_eof
  | _ => exact nofun

/-- What spells a token is read as it, where it stands right before what may follow it. -/
theorem Spells.next_eq {s rest : List Char} {t : Token} (h : Spells rest s t) (size : Nat) :
    (Scanner.mk size (s ++ rest) .tag false).next =
      (.ok t, ⟨size, rest, Mode.tag.after (.ok t), false⟩) :=
  (next_eq_ok_iff rfl h.ne_eof).2 ⟨rest, .inTag isBlanks_nil h, rfl⟩

theorem tokens_eq_iff {s : Scanner} {ts : List Token} (hs : s.finished = false) :
    s.tokens = (ts, none) ↔ Scans s.mode s.rest ts := by
  induction ts generalizing s with
  | nil =>
    rw [tokens_eq_nil_iff, next_eof_iff hs]
    constructor
    · exact .done
    · intro h
      cases h with
      | done h => exact h
  | cons t ts ih =>
    rw [tokens_eq_cons_iff]
    refine ⟨fun h => ?_, fun h => ?_⟩
    · obtain ⟨ht, s', hnext, hts⟩ := h
      obtain ⟨rest, htakes, rfl⟩ := (next_eq_ok_iff hs ht).1 hnext
      exact .step htakes ((ih rfl).1 hts)
    · cases h with
      | step htakes hts =>
        refine ⟨htakes.ne_eof, _, (next_eq_ok_iff hs htakes.ne_eof).2 ⟨_, htakes, rfl⟩, ?_⟩
        exact (ih rfl).2 hts

end TagTemplate.Scanner
