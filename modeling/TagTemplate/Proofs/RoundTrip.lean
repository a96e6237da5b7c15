import TagTemplate.Proofs.Agreement
import TagTemplate.Proofs.NumberText
import TagTemplate.Template.Source

/-! Writing a template and reading it again. Each part of a canonical tree is written as a spelling
of its own tokens, in front of whatever the writer puts behind it; so the scanner finds the tokens
of the tree in its source, and the grammar gives them back to the tree. -/

namespace TagTemplate

open Scanner

/-! ## Texts and strings -/

theorem head?_escapeText {cs : List Char} (h : (escapeText cs).head? = some '$') :
    cs.head? = some '$' := by
  unfold escapeText at h
  split at h
  · cases h
  · cases h
  · cases h
  · exact h

theorem literal_escapeText (cs : List Char) : Literal (escapeText cs) cs := by
  fun_induction escapeText cs with
  | case1 => exact .nil
  | case2 rest ih => exact .escape (.inl rfl) ih
  | case3 rest ih => exact .escape (.inr rfl) (.plain (by decide) (by simp) ih)
  | case4 c rest hslash hopen ih =>
    refine .plain hslash ?_ ih
    intro hc hhead
    obtain ⟨tail, hrest⟩ := List.head?_eq_some_iff.1 (head?_escapeText hhead)
    exact hopen tail hc hrest

theorem escapeText_ne_nil {cs : List Char} (h : cs ≠ []) : escapeText cs ≠ [] := by
  intro hnil
  have hliteral := literal_escapeText cs
  rw [hnil] at hliteral
  cases hliteral
  exact h rfl

theorem quotes_escapeChar (c : Char) {raw body : List Char} (h : Quotes raw body) :
    Quotes (Element.escapeChar c ++ raw) (c :: body) := by
  unfold Element.escapeChar
  split
  · rename_i letter hletter
    refine .escape ?_ h
    unfold Element.escapeLetter? at hletter
    split at hletter <;> cases hletter <;> rfl
  · rename_i hnone
    have hslash : c ≠ '\\' := by
      intro hc
      subst hc
      cases hnone
    have hquote : c ≠ '"' := by
      intro hc
      subst hc
      cases hnone
    exact .plain hslash hquote h

theorem quotes_escaped (cs : List Char) : Quotes (cs.flatMap Element.escapeChar) cs := by
  induction cs with
  | nil => exact .nil
  | cons c cs ih =>
    rw [List.flatMap_cons]
    exact quotes_escapeChar c ih

theorem spells_literal (s : String) (rest : List Char) :
    Spells rest (Element.literal s.toList) (.element (.string s)) := by
  have hspells : Spells rest _ _ := .string (quotes_escaped s.toList)
  rwa [String.ofList_toList] at hspells

/-! ## Elements -/

theorem tokenOfName_variable {name : String} (h : IsVariable name) :
    tokenOfName name.toList = .element (.var name) := by
  rw [tokenOfName, h.2, String.ofList_toList]

/-- Behind every element the writer puts a space, which ends any of them. -/
theorem Element.Canonical.spells {e : Element} (h : e.Canonical) (rest : List Char) :
    Spells (' ' :: rest) e.text.toList (.element e) := by
  have hname : StopsAt isNameChar (' ' :: rest) := stopsAt_cons.2 rfl
  have hruns : StopsAt runsOn (' ' :: rest) := stopsAt_cons.2 (by decide)
  cases e with
  | integer n =>
    obtain ⟨negative, digits, htext, hspells⟩ := integer_spells n
    rw [Element.text, htext]
    exact .number (isSign_signChars negative) hspells hruns
  | double x => exact Double.spells_text h hruns
  | string s =>
    rw [Element.text, String.toList_ofList]
    exact spells_literal s _
  | var name =>
    have hspells := Spells.name h.1 hname
    rwa [tokenOfName_variable h] at hspells
  | function name =>
    have hspells := Spells.function h hname
    rw [String.ofList_toList] at hspells
    rw [Element.text, String.toList_append]
    exact hspells
  | operator symbol =>
    obtain ⟨op, rfl⟩ := mem_symbols_iff.1 h
    rw [Element.text, String.toList_singleton]
    exact .operator fun _ => stopsAt_cons.2 rfl

theorem scans_spaced {elements : List Element} (h : ∀ e ∈ elements, e.Canonical)
    {rest : List Char} {ts : List Token} (hrest : Scans .text rest ts) :
    Scans .tag (spaced elements ++ ' ' :: '$' :: '}' :: rest)
      (elementTokens elements ++ .tagClose :: ts) := by
  induction elements with
  | nil => exact .step (.inTag isBlanks_space .tagClose) hrest
  | cons e elements ih =>
    obtain ⟨he, helements⟩ := List.forall_mem_cons.1 h
    have hnext : ∃ after, spaced elements ++ ' ' :: '$' :: '}' :: rest = ' ' :: after := by
      cases elements with
      | nil => exact ⟨_, rfl⟩
      | cons e elements => exact ⟨_, rfl⟩
    obtain ⟨after, hafter⟩ := hnext
    have htakes := Takes.inTag isBlanks_space (he.spells after)
    rw [← hafter] at htakes
    have hscans := Scans.step htakes (ih helements)
    simpa [spaced, elementTokens] using hscans

/-! ## Tags -/

theorem scans_echoTag {elements : List Element} (h : ∀ e ∈ elements, e.Canonical)
    {rest : List Char} {ts : List Token} (hrest : Scans .text rest ts) :
    Scans .text ((Node.echo elements).source ++ rest) (echoTag elements ++ ts) := by
  have helements := scans_spaced h hrest
  have hecho : Takes .tag ('=' :: (spaced elements ++ ' ' :: '$' :: '}' :: rest)) (.keyword .echo) _ :=
    .inTag isBlanks_nil .echo
  have hscans := Scans.step .tagOpen (.step hecho helements)
  simpa [Node.source, echoTag] using hscans

def LoopHead.elements (head : LoopHead) : List Element :=
  .var head.name :: head.start :: head.step.toList ++ [head.stop]

theorem LoopHead.source_eq (head : LoopHead) :
    head.source = '{' :: '$' :: ' ' :: 'F' :: 'O' :: 'R' :: spaced head.elements ++
      [' ', '$', '}'] := by
  simp [LoopHead.source, LoopHead.elements, spaced, Element.text]

theorem LoopHead.Canonical.spelled {head : LoopHead} (h : head.Canonical) :
    LoopHead.Spelled head.elements head := by
  obtain ⟨name, start, stop, step⟩ := head
  cases step with
  | none => exact .three h.start.1 h.stop.1
  | some step => exact .four h.start.1 (h.step step rfl).1 h.stop.1

theorem LoopHead.Canonical.elements {head : LoopHead} (h : head.Canonical) :
    ∀ e ∈ head.elements, e.Canonical := by
  intro e he
  obtain ⟨name, start, stop, step⟩ := head
  simp only [LoopHead.elements, List.cons_append, List.mem_cons, List.mem_append,
    Option.mem_toList, List.not_mem_nil, or_false] at he
  rcases he with rfl | rfl | he | rfl
  · exact h.name
  · exact h.start.2
  · exact (h.step e he).2
  · exact h.stop.2

theorem scans_loopTag {head : LoopHead} (h : head.Canonical) {rest : List Char} {ts : List Token}
    (hrest : Scans .text rest ts) :
    Scans .text (head.source ++ rest) (loopTag head.elements ++ ts) := by
  have helements := scans_spaced h.elements hrest
  have hname : IsName ['F', 'O', 'R'] := by decide
  have hfor : Takes .tag (' ' :: 'F' :: 'O' :: 'R' ::
      (spaced head.elements ++ ' ' :: '$' :: '}' :: rest)) (.keyword .loop) _ :=
    .inTag isBlanks_space (.name hname (stopsAt_cons.2 rfl))
  have hscans := Scans.step .tagOpen (.step hfor helements)
  simpa [LoopHead.source_eq, loopTag] using hscans

theorem scans_endTag {rest : List Char} {ts : List Token} (hrest : Scans .text rest ts) :
    Scans .text ('{' :: '$' :: 'E' :: 'N' :: 'D' :: '$' :: '}' :: rest) (endTag ++ ts) := by
  have hname : IsName ['E', 'N', 'D'] := by decide
  have hend : Takes .tag ('E' :: 'N' :: 'D' :: '$' :: '}' :: rest) (.keyword .close) _ :=
    .inTag isBlanks_nil (.name hname (stopsAt_cons.2 rfl))
  have hclose : Takes .tag ('$' :: '}' :: rest) .tagClose rest := .inTag isBlanks_nil .tagClose
  exact .step .tagOpen (.step hend (.step hclose hrest))

/-! ## Trees -/

/-- The writer's input ends, or goes on with a tag. -/
theorem opens_source {ns : List Node} (h : ∀ n ∈ ns.head?, n.isText = false) {rest : List Char}
    (hrest : Opens rest) : Opens (Template.source ns ++ rest) := by
  cases ns with
  | nil => exact hrest
  | cons n ns =>
    cases n with
    | text s => cases h _ rfl
    | echo elements => exact .inr ⟨_, rfl⟩
    | loop head body => exact .inr ⟨_, by simp [Template.source, Node.source, LoopHead.source]; rfl⟩

mutual

theorem Node.Canonical.reads {rest : List Char} {ts : List Token} (hrest : Scans .text rest ts) :
    ∀ {n : Node}, n.Canonical → (n.isText = true → Opens rest) →
      ∃ us, Derives us [n] ∧ Scans .text (n.source ++ rest) (us ++ ts)
  | .text s, hs, hopens => by
    have hne : s.toList ≠ [] := fun h => hs (String.toList_eq_nil_iff.1 h)
    have htakes := Takes.text (escapeText_ne_nil hne) (literal_escapeText s.toList) (hopens rfl)
    rw [String.ofList_toList] at htakes
    exact ⟨[.text s], .text .done, .step htakes hrest⟩
  | .echo elements, h, _ => by
    refine ⟨echoTag elements, ?_, scans_echoTag h hrest⟩
    simpa using Derives.echo .done
  | .loop head body, h, _ => by
    -- behind the body stands the END tag, so a text at its end is cut off there
    obtain ⟨inner, hinner, hscans⟩ := Template.Canonical.reads (scans_endTag hrest) h.2
      (.inr ⟨_, rfl⟩)
    refine ⟨loopTag head.elements ++ inner ++ endTag, ?_, ?_⟩
    · simpa using Derives.loop h.1.spelled hinner .done
    · have hloop := scans_loopTag h.1 hscans
      simpa [Node.source] using hloop

/-- The source of a canonical tree has tokens that spell the tree, in front of any input that goes
on with a tag. -/
theorem Template.Canonical.reads {rest : List Char} {ts : List Token}
    (hrest : Scans .text rest ts) : ∀ {ns : List Node}, Template.Canonical ns → Opens rest →
      ∃ us, Derives us ns ∧ Scans .text (Template.source ns ++ rest) (us ++ ts)
  | [], _, _ => ⟨[], .done, hrest⟩
  | n :: ns, h, hopens => by
    obtain ⟨us, hns, hscans⟩ := Template.Canonical.reads hrest h.2.2 hopens
    obtain ⟨vs, hn, hscans'⟩ := Node.Canonical.reads hscans h.1 fun htext =>
      opens_source (h.2.1 htext) hopens
    refine ⟨vs ++ us, hn.append hns, ?_⟩
    simpa [Template.source] using hscans'

end

namespace Template

theorem Canonical.parse_toSource {t : Template} (h : Template.Canonical t) :
    parse (toSource t) = .ok t := by
  obtain ⟨ts, hderives, hscans⟩ := Template.Canonical.reads (.done rfl) h (.inl rfl)
  rw [List.append_nil, List.append_nil] at hscans
  refine parse_eq_ok_iff.2 ⟨ts, (tokens_eq_iff rfl).2 ?_, hderives⟩
  show Scans .text (toSource t).toList ts
  rw [toSource, String.toList_ofList]
  exact hscans

/-- Just the canonical trees survive being written and read again, whether the result is to be the
same or to agree. All that is read off a source is canonical, so writing it brings it into a normal
form, which does not change any more. -/
theorem survives_iff_canonical :
    (∀ t : Template, parse (toSource t) = .ok t ↔ Canonical t) ∧
    (∀ t : Template, (∃ u, parse (toSource t) = .ok u ∧ agrees u t = true) ↔ Canonical t) ∧
    ∀ (source : String) (t : Template), parse source = .ok t →
      Canonical t ∧ parse (toSource t) = .ok t ∧
        (parse (toSource t)).map toSource = .ok (toSource t) := by
  refine ⟨fun t => ⟨canonical_of_parse, Canonical.parse_toSource⟩, fun t => ⟨?_, ?_⟩, ?_⟩
  · intro h
    obtain ⟨u, hparse, hagrees⟩ := h
    exact Template.Canonical.of_agrees hagrees (canonical_of_parse hparse)
  · intro h
    exact ⟨t, h.parse_toSource, Template.Canonical.agrees_self h⟩
  · intro source t h
    have hcanonical := canonical_of_parse h
    have hparse := Canonical.parse_toSource hcanonical
    refine ⟨hcanonical, hparse, ?_⟩
    rw [hparse]
    rfl

/-- A loop that counts down, between texts that look like parts of tags. -/
def countdown : Template :=
  [.text "\\\x7b$", .loop ⟨"x", .integer 4, .string "0", some (.integer (-1))⟩
    [.text "$\x7d\x7b", .echo [.var "x", .integer 5, .operator '-'], .echo [.function "dup"]]]

theorem countdown_survives : Canonical countdown ∧ parse (toSource countdown) = .ok countdown ∧
    (parse (toSource countdown)).map toSource = .ok (toSource countdown) :=
  survives_iff_canonical.2.2 _ _ ((survives_iff_canonical.1 countdown).2 (by decide))

end Template

end TagTemplate
