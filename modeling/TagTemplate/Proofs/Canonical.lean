import Mathlib.Data.List.Chain
import TagTemplate.Proofs.Grammar
import TagTemplate.Proofs.Scanning

/-! Canonical trees: every part of them can be written down, and no text is empty or cut in two.
What is read off a source is always one, since the scanner makes no other elements and takes as
much text as it can. -/

namespace TagTemplate

open Scanner (IsName Spells Takes Scans Mode)

/-! ## The trees -/

/-- A name that no keyword has in any case of its letters. -/
def IsVariable (name : String) : Prop :=
  IsName name.toList ∧ Keyword.ofIdentifier? name.toList = none

instance (name : String) : Decidable (IsVariable name) := inferInstanceAs (Decidable (_ ∧ _))

def Element.Canonical : Element → Prop
  | .integer _ => True
  | .double x => x.isFinite = true
  | .string _ => True
  | .var name => IsVariable name
  | .function name => IsName name.toList
  | .operator symbol => symbol ∈ ['+', '-', '*', '/', '^']

instance : DecidablePred Element.Canonical
  | .integer _ | .string _ => inferInstanceAs (Decidable True)
  | .double x => inferInstanceAs (Decidable (x.isFinite = true))
  | .var name => inferInstanceAs (Decidable (IsVariable name))
  | .function name => inferInstanceAs (Decidable (IsName name.toList))
  | .operator symbol => inferInstanceAs (Decidable (symbol ∈ ['+', '-', '*', '/', '^']))

structure LoopHead.Canonical (head : LoopHead) : Prop where
  name : IsVariable head.name
  start : head.start.isData = true ∧ head.start.Canonical
  stop : head.stop.isData = true ∧ head.stop.Canonical
  step : ∀ e ∈ head.step, e.isData = true ∧ e.Canonical

instance (head : LoopHead) : Decidable head.Canonical :=
  decidable_of_iff (IsVariable head.name ∧ (head.start.isData = true ∧ head.start.Canonical) ∧
      (head.stop.isData = true ∧ head.stop.Canonical) ∧
      ∀ e ∈ head.step, e.isData = true ∧ e.Canonical)
    ⟨fun h => ⟨h.1, h.2.1, h.2.2.1, h.2.2.2⟩, fun h => ⟨h.name, h.start, h.stop, h.step⟩⟩

def Node.isText : Node → Bool
  | .text _ => true
  | _ => false

mutual

def Node.Canonical : Node → Prop
  | .text s => s ≠ ""
  | .echo elements => ∀ e ∈ elements, e.Canonical
  | .loop head body => head.Canonical ∧ Template.Canonical body

/-- At every level no text is next to another one. -/
def Template.Canonical : List Node → Prop
  | [] => True
  | n :: ns => n.Canonical ∧ (n.isText = true → ∀ m ∈ ns.head?, m.isText = false) ∧
      Template.Canonical ns

end

mutual

def Node.decideCanonical : (n : Node) → Decidable n.Canonical
  | .text s => inferInstanceAs (Decidable (s ≠ ""))
  | .echo elements => inferInstanceAs (Decidable (∀ e ∈ elements, e.Canonical))
  | .loop head body =>
    @instDecidableAnd head.Canonical (Template.Canonical body) inferInstance
      (Template.decideCanonical body)

def Template.decideCanonical : (ns : List Node) → Decidable (Template.Canonical ns)
  | [] => inferInstanceAs (Decidable True)
  | n :: ns =>
    @instDecidableAnd n.Canonical _ n.decideCanonical
      (@instDecidableAnd _ (Template.Canonical ns) inferInstance (Template.decideCanonical ns))

end

instance (t : Template) : Decidable (Template.Canonical t) := Template.decideCanonical t

theorem mem_symbols_iff {c : Char} :
    c ∈ ['+', '-', '*', '/', '^'] ↔ ∃ op : Operation, c = op.symbol := by
  refine ⟨fun h => ?_, fun h => ?_⟩
  · simp only [List.mem_cons, List.not_mem_nil, or_false] at h
    rcases h with rfl | rfl | rfl | rfl | rfl
    · exact ⟨.add, rfl⟩
    · exact ⟨.subtract, rfl⟩
    · exact ⟨.multiply, rfl⟩
    · exact ⟨.divide, rfl⟩
    · exact ⟨.power, rfl⟩
  · obtain ⟨op, rfl⟩ := h
    cases op <;> decide

/-! ## The tokens of a source -/

def Token.isText : Token → Bool
  | .text _ => true
  | _ => false

def Token.Canonical : Token → Prop
  | .text s => s ≠ ""
  | .element e => e.Canonical
  | _ => True

namespace Scanner

theorem tokenOfName_canonical {name : List Char} (h : IsName name) :
    (tokenOfName name).Canonical := by
  unfold tokenOfName
  split
  · trivial
  · rename_i hkeyword
    have hlist : (String.ofList name).toList = name := String.toList_ofList
    exact ⟨by rw [hlist]; exact h, by rw [hlist]; exact hkeyword⟩

theorem Spells.canonical {s rest : List Char} {t : Token} (h : Spells rest s t) : t.Canonical := by
  cases h with
  | function hname =>
    show IsName (String.ofList _).toList
    rw [String.toList_ofList]
    exact hname
  | number _ hs =>
    cases hs with
    | integer => trivial
    | double _ _ _ hfinite => exact hfinite
  | operator => exact mem_symbols_iff.2 ⟨_, rfl⟩
  | name hname => exact tokenOfName_canonical hname
  | _ => trivial

theorem Literal.ne_nil {raw run : List Char} (h : Literal raw run) (hne : raw ≠ []) :
    run ≠ [] := by
  cases h with
  | nil => exact absurd rfl hne
  | escape => exact List.cons_ne_nil _ _
  | plain => exact List.cons_ne_nil _ _

theorem Takes.canonical {mode : Mode} {cs rest : List Char} {t : Token}
    (h : Takes mode cs t rest) : t.Canonical := by
  cases h with
  | tagOpen => trivial
  | text hne hraw =>
    intro hempty
    exact hraw.ne_nil hne (String.ofList_eq_empty_iff.1 hempty)
  | inTag _ hs => exact hs.canonical

theorem Scans.canonical {mode : Mode} {cs : List Char} {ts : List Token} (h : Scans mode cs ts) :
    ∀ t ∈ ts, t.Canonical := by
  induction h with
  | done => exact List.forall_mem_nil _
  | step htakes _ ih => exact List.forall_mem_cons.2 ⟨htakes.canonical, ih⟩

theorem Spells.not_text {s rest : List Char} {t : Token} (h : Spells rest s t) :
    t.isText = false := by
  cases h with
  | name =>
    unfold tokenOfName
    split <;> rfl
  | _ => rfl

/-- A text ends where a tag opens, or with the input. -/
theorem Takes.not_text {cs rest : List Char} {t : Token} (h : Takes .text cs t rest)
    (hcs : Opens cs) : t.isText = false := by
  cases h with
  | tagOpen => rfl
  | text hne hraw hrest =>
    rcases hcs with hnil | ⟨tail, hopen⟩
    · exact absurd (List.append_eq_nil_iff.1 hnil).1 hne
    · exact absurd hopen (hraw.not_opening hne hrest tail)

/-- No two tokens in a row are text. -/
def TextsApart (ts : List Token) : Prop :=
  ts.IsChain fun t u => t.isText = true → u.isText = false

/-- As much text as possible is taken at once. -/
theorem Scans.textsApart {mode : Mode} {cs : List Char} {ts : List Token} (h : Scans mode cs ts) :
    TextsApart ts := by
  induction h with
  | done => exact .nil
  | @step mode cs rest t ts htakes hrest ih =>
    refine List.isChain_cons.2 ⟨?_, ih⟩
    intro u hu ht
    cases htakes with
    | tagOpen => cases ht
    | text _ _ hopens =>
      -- what is left after a text opens a tag, so it cannot start with another text
      cases hrest with
      | done => cases hu
      | step hnext =>
        cases hu
        exact hnext.not_text hopens
    | inTag _ hs =>
      rw [hs.not_text] at ht
      cases ht

end Scanner

/-! ## The trees of a source -/

open Scanner (TextsApart)

theorem LoopHead.Spelled.canonical {elements : List Element} {head : LoopHead}
    (h : LoopHead.Spelled elements head) (helements : ∀ e ∈ elements, e.Canonical) :
    head.Canonical := by
  cases h with
  | three hstart hstop =>
    simp only [List.forall_mem_cons] at helements
    obtain ⟨hname, hstart', hstop', -⟩ := helements
    exact ⟨hname, ⟨hstart, hstart'⟩, ⟨hstop, hstop'⟩, fun e he => absurd he (Option.not_mem_none e)⟩
  | four hstart hstep hstop =>
    simp only [List.forall_mem_cons] at helements
    obtain ⟨hname, hstart', hstep', hstop', -⟩ := helements
    refine ⟨hname, ⟨hstart, hstart'⟩, ⟨hstop, hstop'⟩, ?_⟩
    rintro e ⟨rfl⟩
    exact ⟨hstep, hstep'⟩

theorem elements_canonical {open₁ open₂ : Token} {elements : List Element} {after : List Token}
    (h : ∀ t ∈ open₁ :: open₂ :: elementTokens elements ++ after, t.Canonical) :
    ∀ e ∈ elements, e.Canonical := by
  intro e he
  refine h (.element e) (List.mem_append_left _ ?_)
  exact List.mem_cons_of_mem _ (List.mem_cons_of_mem _ (List.mem_map_of_mem he))

theorem Derives.canonical {ts : List Token} {ns : List Node} (h : Derives ts ns)
    (hforms : ∀ t ∈ ts, t.Canonical) (hapart : TextsApart ts) : Template.Canonical ns := by
  induction h with
  | done => trivial
  | @text s ts ns hns ih =>
    obtain ⟨hs, hforms⟩ := List.forall_mem_cons.1 hforms
    obtain ⟨hfirst, hapart⟩ := List.isChain_cons.1 hapart
    refine ⟨hs, ?_, ih hforms hapart⟩
    intro _ m hm
    cases hns with
    | done => cases hm
    | text => cases hfirst _ rfl rfl
    | echo => cases hm; rfl
    | loop => cases hm; rfl
  | echo _ ih =>
    obtain ⟨htag, hforms⟩ := List.forall_mem_append.1 hforms
    exact ⟨elements_canonical htag, nofun, ih hforms hapart.right_of_append⟩
  | loop hhead _ _ ihbody ih =>
    obtain ⟨hblock, hforms⟩ := List.forall_mem_append.1 hforms
    obtain ⟨hopen, -⟩ := List.forall_mem_append.1 hblock
    obtain ⟨htag, hinner⟩ := List.forall_mem_append.1 hopen
    have hbody := ihbody hinner hapart.left_of_append.left_of_append.right_of_append
    refine ⟨⟨hhead.canonical (elements_canonical htag), hbody⟩, nofun, ?_⟩
    exact ih hforms hapart.right_of_append

/-- Every tree that is read off a source is canonical. -/
theorem Template.canonical_of_parse {source : String} {t : Template}
    (h : Template.parse source = .ok t) : Template.Canonical t := by
  obtain ⟨ts, htokens, hderives⟩ := Template.parse_eq_ok_iff.1 h
  have hscans := (Scanner.tokens_eq_iff rfl).1 htokens
  exact hderives.canonical hscans.canonical hscans.textsApart

end TagTemplate
