import TagTemplate.Proofs.Concatenation
import TagTemplate.Proofs.ErrorPlaces
import TagTemplate.Proofs.ScannerProgress

/-! The scanner and the reader in step. The scanner switches its mode at the delimiters without
being told, and the reader keeps its own place in a tag; each token that the one gives and the other
takes moves both alike. So the scanner is outside of tags whenever the reader is, and what it gives
there is what the reader expects. -/

namespace TagTemplate

/-! ## Tokens in order -/

/-- A keyword or an element. -/
def Token.isInner : Token → Bool
  | .keyword _ | .element _ => true
  | _ => false

theorem Token.isText_of_isInner {t : Token} (h : t.isInner = true) : t.isText = false := by
  cases t <;> simp_all [Token.isInner, Token.isText]

def Token.isDelimiter : Token → Bool
  | .tagOpen | .tagClose => true
  | _ => false

/-- The delimiters among the tokens. -/
def delimiters (ts : List Token) : List Token := ts.filter Token.isDelimiter

theorem delimiters_append (ts us : List Token) :
    delimiters (ts ++ us) = delimiters ts ++ delimiters us := List.filter_append ts us

namespace Scanner

/-- The order of the tokens of a whole source. -/
structure InOrder (ts : List Token) : Prop where
  eofLast : ∃ before, ts = before ++ [.eof] ∧ .eof ∉ before
  texts : ∀ s, .text s ∈ ts → s ≠ ""
  textsApart : TextsApart ts
  opens : ∀ t ∈ (delimiters ts).head?, t = .tagOpen
  alternate : (delimiters ts).IsChain (· ≠ ·)
  /-- The last delimiter before a keyword or an element has opened a tag. -/
  inside : ∀ before t after, ts = before ++ t :: after → t.isInner = true →
    (delimiters before).getLast? = some .tagOpen
  /-- The last delimiter before a text, if there is one, has closed a tag. -/
  outside : ∀ before t after, ts = before ++ t :: after → t.isText = true →
    (delimiters before).getLast? ≠ some .tagOpen

theorem Spells.isInner {s rest : List Char} {t : Token} (h : Spells rest s t) :
    t = .tagClose ∨ t.isInner = true := by
  cases h with
  | tagClose => exact .inl rfl
  | name =>
    unfold tokenOfName
    split <;> exact .inr rfl
  | _ => exact .inr rfl

theorem Takes.of_text {cs rest : List Char} {t : Token} (h : Takes .text cs t rest) :
    t = .tagOpen ∨ ∃ s, t = .text s := by
  cases h with
  | tagOpen => exact .inl rfl
  | text => exact .inr ⟨_, rfl⟩

theorem Takes.of_tag {cs rest : List Char} {t : Token} (h : Takes .tag cs t rest) :
    t = .tagClose ∨ t.isInner = true := by
  cases h with
  | inTag _ hs => exact hs.isInner

/-- Every token is read in the mode that the tokens before it lead to. -/
theorem Scans.takes {mode : Mode} {cs : List Char} {before after : List Token} {t : Token}
    (h : Scans mode cs (before ++ t :: after)) :
    ∃ cs' rest, Takes (mode.afterAll before) cs' t rest := by
  induction before generalizing mode cs with
  | nil =>
    cases h with
    | step htakes => exact ⟨_, _, htakes⟩
  | cons u before ih =>
    cases h with
    | step _ hrest => exact ih hrest

/-- Only delimiters change the mode, and the last one decides it. -/
theorem afterAll_eq (ts : List Token) : Mode.text.afterAll ts =
    if (delimiters ts).getLast? = some .tagOpen then .tag else .text := by
  induction ts using List.reverseRecOn with
  | nil => rfl
  | append_singleton ts t ih =>
    rw [afterAll_append, ih, delimiters_append]
    cases t <;> simp [delimiters, Token.isDelimiter, Mode.afterAll, Mode.after]

/-- The delimiter that leads out of a mode. -/
def Mode.delimiter : Mode → Token
  | .text => .tagOpen
  | .tag => .tagClose

theorem Mode.isDelimiter_delimiter (mode : Mode) : mode.delimiter.isDelimiter = true := by
  cases mode <;> rfl

/-- A token that is no delimiter keeps the mode, and a delimiter leads out of it. -/
theorem Takes.isDelimiter {mode : Mode} {cs rest : List Char} {t : Token}
    (h : Takes mode cs t rest) :
    (t.isDelimiter = false ∧ mode.after (.ok t) = mode) ∨
      (t = mode.delimiter ∧ (mode.after (.ok t)).delimiter ≠ t) := by
  cases mode with
  | text =>
    rcases h.of_text with rfl | ⟨s, rfl⟩
    · exact .inr ⟨rfl, nofun⟩
    · exact .inl ⟨rfl, rfl⟩
  | tag =>
    rcases h.of_tag with rfl | hinner
    · exact .inr ⟨rfl, nofun⟩
    · cases t <;> first | exact .inl ⟨rfl, rfl⟩ | cases hinner

theorem Scans.alternate {mode : Mode} {cs : List Char} {ts : List Token} (h : Scans mode cs ts) :
    (∀ t ∈ (delimiters ts).head?, t = mode.delimiter) ∧ (delimiters ts).IsChain (· ≠ ·) := by
  induction h with
  | done => simp [delimiters]
  | @step mode cs rest t ts htakes _ ih =>
    obtain ⟨hfirst, hchain⟩ := ih
    rcases htakes.isDelimiter with ⟨hnot, hmode⟩ | ⟨rfl, hout⟩
    · have hskip : delimiters (t :: ts) = delimiters ts := by simp [delimiters, hnot]
      rw [hmode] at hfirst
      rw [hskip]
      exact ⟨hfirst, hchain⟩
    · have htake : delimiters (mode.delimiter :: ts) = mode.delimiter :: delimiters ts := by
        simp [delimiters, mode.isDelimiter_delimiter]
      rw [htake]
      refine ⟨by simp, List.isChain_cons.2 ⟨fun u hu heq => ?_, hchain⟩⟩
      rw [← hfirst u hu] at hout
      exact hout heq.symm

theorem Scans.ne_eof {mode : Mode} {cs : List Char} {ts : List Token} (h : Scans mode cs ts) :
    .eof ∉ ts := by
  induction h with
  | done => exact List.not_mem_nil
  | step htakes _ ih =>
    intro hmem
    rcases List.mem_cons.1 hmem with heq | hmem
    · exact htakes.ne_eof heq.symm
    · exact ih hmem

/-- Only the last token is put behind the ones that the scanner gives. -/
theorem eq_append_of_ne_last {ts before after : List Token} {t last : Token} (ht : t ≠ last)
    (h : ts ++ [last] = before ++ t :: after) : ∃ after', ts = before ++ t :: after' := by
  rcases List.eq_nil_or_concat after with rfl | ⟨init, x, rfl⟩
  · obtain ⟨-, hlast⟩ := List.append_inj' h rfl
    exact absurd (List.cons.inj hlast).1.symm ht
  · rw [List.concat_eq_append, ← List.cons_append, ← List.append_assoc] at h
    exact ⟨init, (List.append_inj' h rfl).1⟩

/-- A token before the last one is read in a tag if the last delimiter has opened one, and else
outside of tags. -/
theorem Scans.takes_behind {cs : List Char} {ts before after : List Token} {t : Token}
    (h : Scans .text cs ts) (ht : t ≠ .eof) (hts : ts ++ [.eof] = before ++ t :: after) :
    ∃ cs' rest,
      Takes (if (delimiters before).getLast? = some .tagOpen then .tag else .text) cs' t rest := by
  obtain ⟨after', rfl⟩ := eq_append_of_ne_last ht hts
  rw [← afterAll_eq]
  exact h.takes

theorem Scans.inOrder {cs : List Char} {ts : List Token} (h : Scans .text cs ts) :
    InOrder (ts ++ [.eof]) := by
  have hdelimiters : delimiters (ts ++ [.eof]) = delimiters ts := by
    simp [delimiters, Token.isDelimiter]
  refine ⟨⟨ts, rfl, h.ne_eof⟩, ?texts, ?apart, ?opens, ?alternate, ?inside, ?outside⟩
  case texts =>
    intro s hs
    rcases List.mem_append.1 hs with hs | hs
    · exact h.canonical _ hs
    · simp at hs
  case apart =>
    refine List.isChain_append.2 ⟨h.textsApart, .singleton _, ?_⟩
    intro t _ u hu _
    obtain rfl : Token.eof = u := by simpa using hu
    rfl
  case opens =>
    rw [hdelimiters]
    exact h.alternate.1
  case alternate =>
    rw [hdelimiters]
    exact h.alternate.2
  case inside =>
    intro before t after hts ht
    obtain ⟨_, _, htakes⟩ := h.takes_behind (fun heq => by simp [heq, Token.isInner] at ht) hts
    by_contra hlast
    rw [if_neg hlast] at htakes
    rcases htakes.of_text with rfl | ⟨s, rfl⟩ <;> cases ht
  case outside =>
    intro before t after hts ht hlast
    obtain ⟨_, _, htakes⟩ := h.takes_behind (fun heq => by simp [heq, Token.isText] at ht) hts
    rw [if_pos hlast] at htakes
    rcases htakes.of_tag with rfl | hinner
    · cases ht
    · rw [Token.isText_of_isInner hinner] at ht
      cases ht

end Scanner

/-! ## The errors of the reader -/

/-- Three or four elements are of no wrong number. -/
theorem LoopHead.ofElements_error {elements : List Element} {e : ParseError}
    (h : LoopHead.ofElements elements = .error e) :
    (∃ kind text, e = .invalidElement Keyword.loop.spelling kind text) ∨
      (∃ found, e = .forVariable found) ∨
      (e = .forArity elements.length ∧ elements.length ≠ 3 ∧ elements.length ≠ 4) := by
  unfold LoopHead.ofElements at h
  split at h
  · cases h
    exact .inl ⟨_, _, rfl⟩
  · split at h
    · cases h
    · cases h
    · cases h
      exact .inr (.inl ⟨_, rfl⟩)
    · cases h
      exact .inr (.inl ⟨_, rfl⟩)
    · rename_i h₃ h₄
      cases h
      refine .inr (.inr ⟨rfl, fun hlength => ?_, fun hlength => ?_⟩)
      · obtain ⟨e₁, e₂, e₃, rfl⟩ := List.length_eq_three.1 hlength
        exact h₃ e₁ e₂ e₃ rfl
      · obtain ⟨e₁, e₂, e₃, e₄, rfl⟩ := List.length_eq_four.1 hlength
        exact h₄ e₁ e₂ e₃ e₄ rfl

namespace Template

/-- All the errors that the reader has with a token. -/
inductive Refuses : Reader → Token → ParseError → Prop
  | outside {t nodes blocks} : t ≠ .tagOpen → (∀ s, t ≠ .text s) →
      Refuses ⟨.outside, nodes, blocks⟩ t (.unknownTag t.describe)
  | opened {t nodes blocks} : (∀ word, t ≠ .keyword word) →
      Refuses ⟨.opened, nodes, blocks⟩ t (.unknownTag t.describe)
  | inLoop {t es nodes blocks} : (∀ e, t ≠ .element e) → t ≠ .tagClose →
      Refuses ⟨.inLoop es, nodes, blocks⟩ t (.unexpectedToken Keyword.loop.spelling t.describe)
  | inEcho {t es nodes blocks} : (∀ e, t ≠ .element e) → t ≠ .tagClose →
      Refuses ⟨.inEcho es, nodes, blocks⟩ t (.unexpectedToken Keyword.echo.spelling t.describe)
  | endLoop {es e nodes blocks} : LoopHead.ofElements es.reverse = .error e →
      Refuses ⟨.inLoop es, nodes, blocks⟩ .tagClose e
  | closing {t nodes blocks} : t ≠ .tagClose →
      Refuses ⟨.closing, nodes, blocks⟩ t (.endNotClosed t.describe)
  | endClose {nodes} : Refuses ⟨.closing, nodes, []⟩ .tagClose .nothingToEnd

theorem refuses_of_feed {r : Reader} {t : Token} {e : ParseError} (h : r.feed t = .error e) :
    Refuses r t e := by
  obtain ⟨place, nodes, blocks⟩ := r
  cases place with
  | outside =>
    cases t with
    | text s => cases h
    | tagOpen => cases h
    | _ => cases h; exact .outside (by simp) (by simp)
  | opened =>
    cases t with
    | keyword word => cases word <;> cases h
    | _ => cases h; exact .opened (by simp)
  | inLoop es =>
    cases t with
    | element e => cases h
    | tagClose =>
      cases hhead : LoopHead.ofElements es.reverse with
      | error e =>
        simp only [Reader.feed, hhead, bind, Except.bind] at h
        cases h
        exact .endLoop hhead
      | ok head => simp [Reader.feed, hhead, bind, Except.bind] at h
    | _ => cases h; exact .inLoop (by simp) (by simp)
  | inEcho es =>
    cases t with
    | element e => cases h
    | tagClose => cases h
    | _ => cases h; exact .inEcho (by simp) (by simp)
  | closing =>
    cases t with
    | tagClose =>
      cases blocks with
      | nil => cases h; exact .endClose
      | cons block outer => cases h
    | _ => cases h; exact .closing (by simp)

/-! ## Asking for tokens -/

/-- The mode in which the scanner has the tokens that may come next. -/
def Place.mode : Place → Scanner.Mode
  | .outside => .text
  | _ => .tag

/-- The scanner and the reader as they are whenever the reader asks for a token. -/
inductive Asks (source : String) : Scanner → Reader → Prop
  | first : Asks source (.ofString source) .start
  | again {s s' : Scanner} {r r' : Reader} {t : Token} : Asks source s r → s.next = (.ok t, s') →
      r.feed t = .ok r' → Asks source s' r'

/-- What comes of asking for a token that ends the reading: the scanner has none, the reader has no
use for it, or it is the end of the input. -/
inductive Stops (s : Scanner) (r : Reader) : Except ParseError Template → Prop
  | scan {e : ScanError} {s' : Scanner} : s.next = (.error e, s') → Stops s r (.error (.scan e))
  | token {t : Token} {s' : Scanner} {e : ParseError} : s.next = (.ok t, s') → t ≠ .eof →
      r.feed t = .error e → Stops s r (.error e)
  | finish {s' : Scanner} : s.next = (.ok .eof, s') → Stops s r r.finish

/-- The template that is read from here on. -/
def readOn (s : Scanner) (r : Reader) : Except ParseError Template := do
  let (tokens, stop) := s.tokens
  let r ← tokens.foldlM Reader.feed r
  match stop with
  | some e => throw (.scan e)
  | none => r.finish

theorem parse_eq_readOn (source : String) :
    parse source = readOn (.ofString source) .start := rfl

theorem readOn_of_token {s s' : Scanner} {t : Token} (h : s.next = (.ok t, s')) (ht : t ≠ .eof)
    (r : Reader) : readOn s r = r.feed t >>= readOn s' :=
  feeder.answer_of_token h ht r

theorem Step.ne_eof {r r' : Reader} {t : Token} (h : Step r t r') : t ≠ .eof := by
  cases h <;> exact nofun

theorem Step.mode_after {r r' : Reader} {t : Token} (h : Step r t r') :
    r.place.mode.after (.ok t) = r'.place.mode := by
  cases h <;> rfl

theorem Asks.inStep {source : String} {s : Scanner} {r : Reader} (h : Asks source s r) :
    s.finished = false ∧ s.mode = r.place.mode := by
  induction h with
  | first => exact ⟨rfl, rfl⟩
  | again _ hnext hfeed ih =>
    obtain ⟨hs, hmode⟩ := ih
    have hstep := step_of_feed hfeed
    obtain ⟨rest, -, rfl⟩ := (Scanner.next_eq_ok_iff hs hstep.ne_eof).1 hnext
    refine ⟨rfl, ?_⟩
    rw [← hstep.mode_after, ← hmode]

/-- The reading comes to an end, and its result is that of the last token asked for. -/
theorem Asks.stops {source : String} {s : Scanner} {r : Reader} (h : Asks source s r) :
    ∃ s' r', Asks source s' r' ∧ Stops s' r' (readOn s r) := by
  rcases hnext : s.next with ⟨result, s'⟩
  cases result with
  | error e =>
    have hscan : readOn s r = .error (.scan e) := by
      rw [readOn, Scanner.tokens_of_error hnext]
      rfl
    rw [hscan]
    exact ⟨s, r, h, .scan hnext⟩
  | ok t =>
    by_cases ht : t = .eof
    · subst ht
      have hfinish : readOn s r = r.finish := by
        rw [readOn, Scanner.tokens_of_eof hnext]
        rfl
      rw [hfinish]
      exact ⟨s, r, h, .finish hnext⟩
    · rw [readOn_of_token hnext ht]
      cases hfeed : r.feed t with
      | error e => exact ⟨s, r, h, .token hnext ht hfeed⟩
      | ok r' =>
        have hshorter := Scanner.length_next hnext ht
        exact (h.again hnext hfeed).stops
termination_by s.rest.length

theorem Asks.afterCalls {source : String} {s : Scanner} {r : Reader} (h : Asks source s r) :
    ∃ n, s = Scanner.afterCalls source n := by
  induction h with
  | first => exact ⟨0, rfl⟩
  | again _ hnext _ ih =>
    obtain ⟨n, rfl⟩ := ih
    exact ⟨n + 1, by rw [Scanner.afterCalls, hnext]⟩

theorem Asks.next_ne_pastEof {source : String} {s : Scanner} {r : Reader} (h : Asks source s r) :
    s.next.1 ≠ .error .pastEof := by
  intro hpast
  have hs := h.inStep.1
  obtain ⟨n, rfl⟩ := h.afterCalls
  exact Scanner.shows_of_next hs hpast

theorem finish_error {r : Reader} {e : ParseError} (h : r.finish = .error e) :
    e = .unterminatedTag ∨ ∃ n, e = .unclosed n := by
  unfold Reader.finish at h
  split at h
  · split at h
    · cases h
    · cases h
      exact .inr ⟨_, rfl⟩
  · cases h
    exact .inl rfl

/-- An error is the scanner's, or the reader's at the token that the scanner gives, or there is no
more input. -/
theorem Stops.error {s : Scanner} {r : Reader} {result : Except ParseError Template}
    {e : ParseError} (h : Stops s r result) (hresult : result = .error e) :
    (∃ fault, e = .scan fault ∧ s.next.1 = .error fault) ∨
      (∃ t s', s.next = (.ok t, s') ∧ t ≠ .eof ∧ r.feed t = .error e) ∨
      e = .unterminatedTag ∨ ∃ n, e = .unclosed n := by
  cases h with
  | scan hnext =>
    cases hresult
    exact .inl ⟨_, rfl, congrArg Prod.fst hnext⟩
  | token hnext ht hfeed =>
    cases hresult
    exact .inr (.inl ⟨_, _, hnext, ht, hfeed⟩)
  | finish => exact .inr (.inr (finish_error hresult))

theorem Refuses.ne_scan {r : Reader} {t : Token} {fault : ScanError} :
    ¬Refuses r t (.scan fault) := by
  intro h
  cases h with
  | endLoop hhead => rcases LoopHead.ofElements_error hhead with ⟨_, _, ⟨⟩⟩ | ⟨_, ⟨⟩⟩ | ⟨⟨⟩, -⟩

theorem Refuses.forArity {r : Reader} {t : Token} {n : Nat} (h : Refuses r t (.forArity n)) :
    n ≠ 3 ∧ n ≠ 4 := by
  cases h with
  | endLoop hhead =>
    rcases LoopHead.ofElements_error hhead with ⟨_, _, ⟨⟩⟩ | ⟨_, ⟨⟩⟩ | ⟨⟨⟩, hlength⟩
    exact hlength

/-- Where a token is unexpected, the reader is in a tag that takes elements. -/
theorem Refuses.unexpected {r : Reader} {t : Token} {tag found : String}
    (h : Refuses r t (.unexpectedToken tag found)) :
    r.place.mode = .tag ∧ (∀ e, t ≠ .element e) ∧ t ≠ .tagClose ∧ found = t.describe := by
  cases h with
  | inLoop helement hclose => exact ⟨rfl, helement, hclose, rfl⟩
  | inEcho helement hclose => exact ⟨rfl, helement, hclose, rfl⟩
  | endLoop hhead => rcases LoopHead.ofElements_error hhead with ⟨_, _, ⟨⟩⟩ | ⟨_, ⟨⟩⟩ | ⟨⟨⟩, -⟩

theorem Asks.takes {source : String} {s s' : Scanner} {r : Reader} {t : Token}
    (h : Asks source s r) (hnext : s.next = (.ok t, s')) (ht : t ≠ .eof) :
    ∃ rest, Scanner.Takes r.place.mode s.rest t rest := by
  obtain ⟨hs, hmode⟩ := h.inStep
  obtain ⟨rest, htakes, -⟩ := (Scanner.next_eq_ok_iff hs ht).1 hnext
  exact ⟨rest, hmode ▸ htakes⟩

/-- The reader asks for tokens until it comes to its result, and whenever it does, the scanner is in
the mode of the reader's place. So outside of tags there is only text or a tag that opens, the input
has not come to its end before, and what is unexpected in a tag is a keyword; a FOR tag of three or
four elements is of no wrong number; and the tokens of a whole source are in order. -/
theorem scanner_in_step (source : String) :
    (∃ s r, Asks source s r ∧ Stops s r (parse source)) ∧
    (∀ s r, Asks source s r → s.finished = false ∧ s.mode = r.place.mode ∧
      ∀ t s', s.next = (.ok t, s') → r.place = .outside →
        t = .eof ∨ t = .tagOpen ∨ ∃ text, t = .text text) ∧
    parse source ≠ .error (.scan .pastEof) ∧
    (∀ tag found, parse source = .error (.unexpectedToken tag found) →
      ∃ s r word s', Asks source s r ∧ s.next = (.ok (.keyword word), s') ∧
        r.feed (.keyword word) = .error (.unexpectedToken tag found) ∧
        found = (Token.keyword word).describe) ∧
    (∀ n, parse source = .error (.forArity n) → n ≠ 3 ∧ n ≠ 4) ∧
    ∀ ts, tokenize source = .ok ts → Scanner.InOrder ts := by
  obtain ⟨s, r, hasks, hstops⟩ := (Asks.first : Asks source _ _).stops
  rw [← parse_eq_readOn] at hstops
  refine ⟨⟨s, r, hasks, hstops⟩, ?inStep, ?pastEof, ?unexpected, ?arity, ?inOrder⟩
  case inStep =>
    intro s r hasks
    obtain ⟨hs, hmode⟩ := hasks.inStep
    refine ⟨hs, hmode, fun t s' hnext houtside => ?_⟩
    by_cases ht : t = .eof
    · exact .inl ht
    · obtain ⟨rest, htakes⟩ := hasks.takes hnext ht
      rw [houtside] at htakes
      exact .inr htakes.of_text
  case pastEof =>
    intro hparse
    rcases hstops.error hparse with ⟨fault, heq, hnext⟩ | ⟨t, s', -, -, hfeed⟩ | heq | ⟨n, heq⟩
    · cases heq
      exact hasks.next_ne_pastEof hnext
    · exact (refuses_of_feed hfeed).ne_scan
    · cases heq
    · cases heq
  case unexpected =>
    intro tag found hparse
    rcases hstops.error hparse with ⟨fault, heq, -⟩ | ⟨t, s', hnext, ht, hfeed⟩ | heq | ⟨n, heq⟩
    · cases heq
    · obtain ⟨hmode, helement, hclose, rfl⟩ := (refuses_of_feed hfeed).unexpected
      obtain ⟨rest, htakes⟩ := hasks.takes hnext ht
      rw [hmode] at htakes
      have hinner := htakes.of_tag.resolve_left hclose
      cases t with
      | keyword word => exact ⟨s, r, word, s', hasks, hnext, hfeed, rfl⟩
      | element e => exact absurd rfl (helement e)
      | _ => cases hinner
    · cases heq
    · cases heq
  case arity =>
    intro n hparse
    rcases hstops.error hparse with ⟨fault, heq, -⟩ | ⟨t, s', -, -, hfeed⟩ | heq | ⟨n, heq⟩
    · cases heq
    · exact (refuses_of_feed hfeed).forArity
    · cases heq
    · cases heq
  case inOrder =>
    intro ts hts
    unfold tokenize at hts
    split at hts
    · rename_i us htokens
      cases hts
      exact ((Scanner.tokens_eq_iff rfl).1 htokens).inOrder
    · cases hts

/-- A keyword in the middle of an echo tag. -/
theorem scanner_in_step_keyword :
    (tokenize "\x7b$=a FOR$\x7d" = .ok [.tagOpen, .keyword .echo, .element (.var "a"),
      .keyword .loop, .tagClose, .eof] ∧
    Scanner.InOrder [.tagOpen, .keyword .echo, .element (.var "a"), .keyword .loop, .tagClose,
      .eof]) ∧
    parse "\x7b$=a FOR$\x7d" = .error (.unexpectedToken "=" (Token.keyword .loop).describe) ∧
    ∃ s r word s', Asks "\x7b$=a FOR$\x7d" s r ∧ s.next = (.ok (.keyword word), s') ∧
      r.feed (.keyword word) = .error (.unexpectedToken "=" (Token.keyword .loop).describe) ∧
      (Token.keyword .loop).describe = (Token.keyword word).describe := by
  have htokens : tokenize "\x7b$=a FOR$\x7d" = .ok ([.tagOpen, .keyword .echo,
      .element (.var "a"), .keyword .loop, .tagClose] ++ [.eof]) := by decide +kernel
  have hparse : parse "\x7b$=a FOR$\x7d" =
      .error (.unexpectedToken "=" (Token.keyword .loop).describe) :=
    parse_of_tokenize htokens
  obtain ⟨-, -, -, hunexpected, -, horder⟩ := scanner_in_step "\x7b$=a FOR$\x7d"
  exact ⟨⟨htokens, horder _ htokens⟩, hparse, hunexpected _ _ hparse⟩

end Template

end TagTemplate
