import TagTemplate.Proofs.RoundTrip
import TagTemplate.Render

/-! Escaped text is inert. The scanner reads it as the one text that it stands for, in front of the
end or of a tag, so that a template can take in any text as it is; and each backslash in it is there
for a reason, since the writer and the scanner stay aligned at every character of the text. -/

namespace TagTemplate

/-! ## Escaped pieces -/

theorem escapeText_plain {c : Char} {cs : List Char} (hslash : c ≠ '\\')
    (hbrace : c = '{' → cs.head? ≠ some '$') : escapeText (c :: cs) = c :: escapeText cs := by
  rw [escapeText]
  · exact hslash
  · intro rest hc hcs
    exact hbrace hc (by rw [hcs, List.head?_cons])

/-- Where a backslash of the escaped text comes from: the text, and what is before and behind the
backslash. Two of them stand for one of the text, and one stands before an opening delimiter. -/
inductive Needed : List Char → List Char → List Char → Prop
  | first (front back : List Char) :
      Needed (front ++ '\\' :: back) (escapeText front) ('\\' :: escapeText back)
  | second (front back : List Char) :
      Needed (front ++ '\\' :: back) (escapeText front ++ ['\\']) (escapeText back)
  | opening (front back : List Char) :
      Needed (front ++ '{' :: '$' :: back) (escapeText front) ('{' :: '$' :: escapeText back)

/-- A piece may be put in front of a text where it is escaped by itself. -/
theorem Needed.behind {t before after : List Char} (h : Needed t before after)
    (piece escaped : List Char)
    (hpiece : ∀ front, front <+: t → escapeText (piece ++ front) = escaped ++ escapeText front) :
    Needed (piece ++ t) (escaped ++ before) after := by
  cases h with
  | first front back =>
    rw [← hpiece front (List.prefix_append _ _), ← List.append_assoc]
    exact .first _ back
  | second front back =>
    rw [← List.append_assoc, ← List.append_assoc, ← hpiece front (List.prefix_append _ _)]
    exact .second _ back
  | opening front back =>
    rw [← hpiece front (List.prefix_append _ _), ← List.append_assoc]
    exact .opening _ back

/-- There is no backslash in an escaped text but for one of these reasons. -/
theorem needed_of_escapeText {t before after : List Char}
    (h : escapeText t = before ++ '\\' :: after) : Needed t before after := by
  fun_induction escapeText t generalizing before with
  | case1 => simp at h
  | case2 rest ih =>
    rcases before with _ | ⟨a, _ | ⟨b, before⟩⟩
    · obtain rfl := (List.cons.inj h).2
      exact .first [] rest
    · simp only [List.cons_append, List.nil_append, List.cons.injEq, true_and] at h
      obtain ⟨rfl, rfl⟩ := h
      exact .second [] rest
    · simp only [List.cons_append, List.cons.injEq] at h
      obtain ⟨rfl, rfl, h⟩ := h
      exact (ih h).behind ['\\'] ['\\', '\\'] fun front _ => rfl
  | case3 rest ih =>
    rcases before with _ | ⟨a, _ | ⟨b, _ | ⟨d, before⟩⟩⟩
    · obtain rfl := (List.cons.inj h).2
      exact .opening [] rest
    · simp at h
    · simp at h
    · simp only [List.cons_append, List.cons.injEq] at h
      obtain ⟨rfl, rfl, rfl, h⟩ := h
      exact (ih h).behind ['{', '$'] ['\\', '{', '$'] fun front _ => rfl
  | case4 c rest hslash hopen ih =>
    rcases before with _ | ⟨a, before⟩
    · exact absurd (List.cons.inj h).1 hslash
    · simp only [List.cons_append, List.cons.injEq] at h
      obtain ⟨rfl, h⟩ := h
      refine (ih h).behind [c] [c] fun front hfront => escapeText_plain hslash ?_
      intro hc hhead
      obtain ⟨more, rfl⟩ := List.head?_eq_some_iff.1 hhead
      obtain ⟨tail, rfl⟩ := hfront
      exact hopen _ hc rfl

/-! ## Reading escaped text -/

namespace Scanner

/-- The scanner takes an escaped text as one token, wherever it stands outside of tags. -/
theorem next_escapeText {t rest : List Char} (hne : t ≠ []) (hrest : Opens rest) (size : Nat) :
    (Scanner.mk size (escapeText t ++ rest) .text false).next =
      (.ok (.text (String.ofList t)), ⟨size, rest, .text, false⟩) := by
  have htakes : Takes .text (escapeText t ++ rest) (.text (String.ofList t)) rest :=
    .text (escapeText_ne_nil hne) (literal_escapeText t) hrest
  refine (next_eq_ok_iff ?_ ?_).2 ⟨rest, htakes, rfl⟩
  · rfl
  · exact nofun

end Scanner

/-- The nodes that stand for a text alone. -/
def Template.ofText (t : String) : Template := if t = "" then [] else [.text t]

theorem Template.toSource_ofText (t : String) :
    Template.toSource (Template.ofText t) = String.ofList (escapeText t.toList) := by
  unfold Template.ofText Template.toSource
  split
  · rename_i ht
    rw [ht]
    rfl
  · rw [Template.source, Template.source, List.append_nil, Node.source]

theorem Template.canonical_ofText (t : String) : Template.Canonical (Template.ofText t) := by
  unfold Template.ofText
  split
  · trivial
  · rename_i ht
    exact ⟨ht, nofun, trivial⟩

theorem parse_escapeText (t : String) :
    Template.parse (String.ofList (escapeText t.toList)) = .ok (Template.ofText t) := by
  rw [← Template.toSource_ofText]
  exact (Template.canonical_ofText t).parse_toSource

/-- A text alone is written as it is. -/
theorem render_of_parse {source t : String} (h : Template.parse source = .ok (Template.ofText t)) :
    render source = .ok t := by
  have hrun : Template.run ampleRounds (Template.ofText t)
      (Machine.start Sink.unbounded Context.default) =
        .ok () (Machine.start ⟨t, none⟩ Context.default) := by
    unfold Template.ofText
    split
    · rename_i ht
      rw [ht]
      rfl
    · show EStateM.Result.ok () (Machine.start (Sink.mk ("" ++ t) none) Context.default) = _
      rw [String.empty_append]
  unfold render renderWith
  rw [h]
  dsimp only
  rw [hrun]
  rfl

/-- Any text can be written into a template. Escaped, it is read as one token, which stands for the
text and ends where the text ends; a template of this token alone holds the text alone, and gives it
back when it is rendered. No backslash is put into it but to double one of the text or to keep an
opening delimiter from being one. -/
theorem escaped_text_inert (t : String) :
    (t ≠ "" → ∀ (size : Nat) (rest : List Char), rest = [] ∨ (∃ tail, rest = '{' :: '$' :: tail) →
      (Scanner.mk size (escapeText t.toList ++ rest) .text false).next =
        (.ok (.text t), ⟨size, rest, .text, false⟩)) ∧
    Template.parse (String.ofList (escapeText t.toList)) =
      .ok (if t = "" then [] else [.text t]) ∧
    render (String.ofList (escapeText t.toList)) = .ok t ∧
    ∀ before after, escapeText t.toList = before ++ '\\' :: after →
      Needed t.toList before after := by
  refine ⟨fun hne size rest hrest => ?_, parse_escapeText t, render_of_parse (parse_escapeText t),
    fun before after => needed_of_escapeText⟩
  have hnext := Scanner.next_escapeText (mt String.toList_eq_nil_iff.1 hne) hrest size
  rwa [String.ofList_toList] at hnext

/-- A backslash before a delimiter, and a brace at the end that a tag follows. The third backslash
of the escaped text is the one that the delimiter needs. -/
theorem escaped_text_inert_braces :
    "\\\x7b$\x7d\x7b" ≠ "" ∧
    escapeText "\\\x7b$\x7d\x7b".toList = "\\\\\\\x7b$\x7d\x7b".toList ∧
    (Scanner.mk 9 ("\\\\\\\x7b$\x7d\x7b".toList ++ ['{', '$']) .text false).next =
      (.ok (.text "\\\x7b$\x7d\x7b"), ⟨9, ['{', '$'], .text, false⟩) ∧
    Needed "\\\x7b$\x7d\x7b".toList ['\\', '\\'] "\x7b$\x7d\x7b".toList := by
  have hne : "\\\x7b$\x7d\x7b" ≠ "" := by decide
  have hinert := escaped_text_inert "\\\x7b$\x7d\x7b"
  exact ⟨hne, by decide, hinert.1 hne 9 ['{', '$'] (.inr ⟨[], rfl⟩), hinert.2.2.2 _ _ (by decide)⟩

end TagTemplate
