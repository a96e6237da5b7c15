import TagTemplate.Proofs.Canonical

/-! Templates written one behind the other. A template that parses leaves the scanner outside of all
tags, so the second one is read as it would be alone; only the text at the seam goes on, and two
texts that meet there become one. -/

namespace TagTemplate

/-! ## Lists that grow together -/

/-- Puts a list behind another one, where the two elements that meet may become one. -/
def glue {α : Type} (merged? : α → α → Option α) : List α → List α → List α
  | [], ys => ys
  | [x], y :: ys =>
    match merged? x y with
    | some z => z :: ys
    | none => x :: y :: ys
  | x :: xs, ys => x :: glue merged? xs ys

def Token.merged? : Token → Token → Option Token
  | .text s, .text u => some (.text (s ++ u))
  | _, _ => none

/-- Texts that are next to each other are one text. -/
def Node.merged? : Node → Node → Option Node
  | .text s, .text u => some (.text (s ++ u))
  | _, _ => none

section

variable {α : Type} {merged? : α → α → Option α} {x : α}

theorem glue_cons_of_ne_nil {xs : List α} (h : xs ≠ []) (ys : List α) :
    glue merged? (x :: xs) ys = x :: glue merged? xs ys := by
  cases xs with
  | nil => exact absurd rfl h
  | cons x' xs => rfl

theorem glue_cons_of_none (h : ∀ y, merged? x y = none) (xs ys : List α) :
    glue merged? (x :: xs) ys = x :: glue merged? xs ys := by
  cases xs with
  | cons x' xs => rfl
  | nil =>
    cases ys with
    | nil => rfl
    | cons y ys => simp only [glue, h]

/-- What is in front of an element that merges with nothing stays as it is. -/
theorem glue_append_of_none (h : ∀ y, merged? x y = none) (ws xs ys : List α) :
    glue merged? (ws ++ x :: xs) ys = ws ++ x :: glue merged? xs ys := by
  induction ws with
  | nil => exact glue_cons_of_none h xs ys
  | cons w ws ih =>
    have hne : ws ++ x :: xs ≠ [] := List.append_ne_nil_of_right_ne_nil _ (List.cons_ne_nil _ _)
    rw [List.cons_append, glue_cons_of_ne_nil hne, ih, List.cons_append]

end

theorem Token.merged?_eq_none {t : Token} (h : t.isText = false) (u : Token) :
    t.merged? u = none := by
  cases t <;> first | rfl | cases h

/-! ## The tree of both -/

theorem Derives.eq_nil_iff {ts : List Token} {ns : List Node} (h : Derives ts ns) :
    ts = [] ↔ ns = [] := by
  cases h <;> simp [echoTag, loopTag]

theorem Derives.glue {ts us : List Token} {ns ms : List Node} (h : Derives ts ns)
    (h' : Derives us ms) :
    Derives (glue Token.merged? ts us) (glue Node.merged? ns ms) := by
  have hclose (t : Token) : Token.tagClose.merged? t = none := rfl
  induction h with
  | done => exact h'
  | @text s ts ns hns ih =>
    by_cases hnil : ts = []
    · obtain rfl := hnil
      obtain rfl := hns.eq_nil_iff.1 rfl
      -- the text is the last item, and so the only one that the other list can change
      cases h' with
      | done => exact .text .done
      | text hms => exact .text hms
      | echo hms => exact .text (.echo hms)
      | loop hhead hbody hms => exact .text (.loop hhead hbody hms)
    · rw [glue_cons_of_ne_nil hnil, glue_cons_of_ne_nil (mt hns.eq_nil_iff.2 hnil)]
      exact .text ih
  | @echo elements ts ns hns ih =>
    have hnode (m : Node) : (Node.echo elements).merged? m = none := rfl
    rw [glue_cons_of_none hnode, echoTag, List.append_assoc, List.singleton_append,
      glue_append_of_none hclose]
    simpa [echoTag] using Derives.echo ih
  | @loop elements head inner ts body ns hhead hbody hns _ ih =>
    have hnode (m : Node) : (Node.loop head body).merged? m = none := rfl
    have htag : loopTag elements ++ inner ++ endTag ++ ts =
        (loopTag elements ++ inner ++ [.tagOpen, .keyword .close]) ++ .tagClose :: ts := by
      simp [endTag]
    rw [glue_cons_of_none hnode, htag, glue_append_of_none hclose]
    simpa [endTag] using Derives.loop hhead hbody ih

/-! ## The tokens of both -/

namespace Scanner

/-- The mode behind some tokens. -/
def Mode.afterAll (mode : Mode) (ts : List Token) : Mode :=
  ts.foldl (fun mode t => mode.after (.ok t)) mode

theorem afterAll_append (mode : Mode) (ts us : List Token) :
    mode.afterAll (ts ++ us) = (mode.afterAll ts).afterAll us :=
  List.foldl_append

theorem afterAll_elements (elements : List Element) :
    Mode.tag.afterAll (elementTokens elements) = .tag := by
  induction elements with
  | nil => rfl
  | cons e elements ih => exact ih

/-- A tag that holds elements leads back to the text. -/
theorem afterAll_tag (word : Keyword) (elements : List Element) :
    Mode.text.afterAll (.tagOpen :: .keyword word :: elementTokens elements ++ [.tagClose]) =
      .text := by
  rw [afterAll_append]
  show ((Mode.tag.afterAll (elementTokens elements)).afterAll [.tagClose]) = .text
  rw [afterAll_elements]
  rfl

theorem afterAll_of_derives {ts : List Token} {ns : List Node} (h : Derives ts ns) :
    Mode.text.afterAll ts = .text := by
  induction h with
  | done => rfl
  | text _ ih => exact ih
  | echo _ ih => rw [afterAll_append, echoTag, afterAll_tag, ih]
  | loop _ _ _ ihbody ih =>
    have hend : Mode.text.afterAll endTag = .text := rfl
    rw [afterAll_append, afterAll_append, afterAll_append, loopTag, afterAll_tag, ihbody, hend, ih]

theorem Literal.append {raw raw' run run' : List Char} (h : Literal raw run)
    (h' : Literal raw' run') (hseam : raw.getLast? = some '{' → raw'.head? ≠ some '$') :
    Literal (raw ++ raw') (run ++ run') := by
  induction h with
  | nil => exact h'
  | escape hc _ ih => exact .escape hc (ih fun hlast => hseam (by simp [List.getLast?_cons, hlast]))
  | @plain c raw run hslash hbrace _ ih =>
    refine .plain hslash ?_ (ih fun hlast => hseam (by simp [List.getLast?_cons, hlast]))
    intro hc
    cases raw with
    | nil => exact hseam (by rw [hc]; rfl)
    | cons d raw => exact hbrace hc

theorem StopsAt.append {p : Char → Bool} {cs : List Char} (h : StopsAt p cs) (hne : cs ≠ [])
    (ds : List Char) : StopsAt p (cs ++ ds) := by
  cases cs with
  | nil => exact absurd rfl hne
  | cons c cs => exact stopsAt_cons.2 (stopsAt_cons.1 h)

/-- How a token is spelled does not depend on more than the next character. -/
theorem Spells.append {rest s : List Char} {t : Token} (h : Spells rest s t) (hne : rest ≠ [])
    (ds : List Char) : Spells (rest ++ ds) s t := by
  cases h with
  | tagClose => exact .tagClose
  | echo => exact .echo
  | string hraw => exact .string hraw
  | function hname hrest => exact .function hname (hrest.append hne ds)
  | number hsign hs hrest => exact .number hsign hs (hrest.append hne ds)
  | operator hrest => exact .operator fun hop => (hrest hop).append hne ds
  | name hname hrest => exact .name hname (hrest.append hne ds)

theorem Spells.eq_tagClose {rest s : List Char} {t : Token} (h : Spells rest s t)
    (hafter : Mode.tag.after (.ok t) = .text) : s = ['$', '}'] ∧ t = .tagClose := by
  cases h with
  | tagClose => exact ⟨rfl, rfl⟩
  | name =>
    unfold tokenOfName at hafter
    split at hafter <;> cases hafter
  | _ => cases hafter

theorem Takes.ne_nil {mode : Mode} {cs rest : List Char} {t : Token} (h : Takes mode cs t rest) :
    cs ≠ [] := by
  cases h with
  | tagOpen => exact List.cons_ne_nil _ _
  | text hne => exact List.append_ne_nil_of_left_ne_nil hne _
  | inTag _ hs =>
    obtain ⟨c, tail, rfl, -⟩ := hs.head
    simp

theorem Scans.eq_nil {mode : Mode} {ts : List Token} (h : Scans mode [] ts) : ts = [] := by
  cases h with
  | done => rfl
  | step htakes => exact absurd rfl htakes.ne_nil

/-- A text that comes to the end of its input goes on with the text that follows there. -/
theorem Literal.scans_glue {raw run ds : List Char} {us : List Token} (h : Literal raw run)
    (hne : raw ≠ []) (hseam : raw.getLast? = some '{' → ds.head? ≠ some '$')
    (h' : Scans .text ds us) :
    Scans .text (raw ++ ds) (glue Token.merged? [.text (String.ofList run)] us) := by
  cases h' with
  | done hend =>
    obtain rfl : ds = [] := hend
    exact .step (.text hne h (.inl rfl)) (.done rfl)
  | @step _ _ rest _ _ htakes hrest =>
    cases htakes with
    | tagOpen => exact .step (.text hne h (.inr ⟨_, rfl⟩)) (.step .tagOpen hrest)
    | @text raw' run' _ hne' hraw' hopens =>
      have hseam' : raw.getLast? = some '{' → raw'.head? ≠ some '$' := by
        intro hlast hhead
        exact hseam hlast (by rw [List.head?_append, hhead]; rfl)
      have htext : Takes .text (raw ++ raw' ++ rest) (.text (String.ofList (run ++ run'))) rest :=
        .text (List.append_ne_nil_of_left_ne_nil hne _) (h.append hraw' hseam') hopens
      rw [String.ofList_append, List.append_assoc] at htext
      exact .step htext hrest

/-- What a scanner that ends outside of all tags reads, it also reads in front of more input. -/
theorem Scans.glue {mode : Mode} {cs ds : List Char} {ts us : List Token} (h : Scans mode cs ts)
    (houtside : mode.afterAll ts = .text) (hseam : cs.getLast? = some '{' → ds.head? ≠ some '$')
    (h' : Scans .text ds us) : Scans mode (cs ++ ds) (glue Token.merged? ts us) := by
  induction h with
  | @done mode cs hend =>
    obtain rfl : mode = .text := houtside
    obtain rfl : cs = [] := hend
    exact h'
  | @step mode cs rest t ts htakes hrest ih =>
    have hlast : ∀ raw, cs = raw ++ rest → rest.getLast? = some '{' → ds.head? ≠ some '$' := by
      intro raw hcs hlast
      exact hseam (by rw [hcs, List.getLast?_append, hlast]; rfl)
    cases htakes with
    | tagOpen =>
      rw [glue_cons_of_none (Token.merged?_eq_none rfl)]
      exact .step .tagOpen (ih houtside (hlast ['{', '$'] rfl))
    | @text raw run rest hne hraw hopens =>
      rcases hopens with rfl | ⟨tail, rfl⟩
      · obtain rfl := hrest.eq_nil
        rw [List.append_nil] at hseam ⊢
        exact hraw.scans_glue hne hseam h'
      · have hts : ts ≠ [] := by
          rintro rfl
          cases hrest with
          | done hend => cases hend
        rw [glue_cons_of_ne_nil hts, List.append_assoc]
        exact .step (.text hne hraw (.inr ⟨tail ++ ds, rfl⟩)) (ih houtside (hlast raw rfl))
    | @inTag blanks s rest t hblanks hs =>
      have hs' : Spells (rest ++ ds) s t := by
        by_cases hne : rest = []
        · -- the last token of the input must be the one that leads out of the tag
          obtain rfl := hne
          obtain rfl := hrest.eq_nil
          obtain ⟨rfl, rfl⟩ := hs.eq_tagClose houtside
          exact .tagClose
        · exact hs.append hne ds
      rw [glue_cons_of_none (Token.merged?_eq_none hs.not_text), List.append_assoc,
        List.append_assoc]
      refine .step (.inTag hblanks hs') (ih houtside (hlast (blanks ++ s) ?_))
      rw [List.append_assoc]

end Scanner

/-- Two templates that parse are one template when they are written one behind the other, unless an
opening delimiter comes about at the seam: its nodes are those of the first one and then those of
the second one, where two texts at the seam are one. -/
theorem Template.parse_append {a b : String} {s t : Template} (ha : Template.parse a = .ok s)
    (hb : Template.parse b = .ok t)
    (hseam : ¬(a.toList.getLast? = some '{' ∧ b.toList.head? = some '$')) :
    Template.parse (a ++ b) = .ok (glue Node.merged? s t) := by
  obtain ⟨ts, htokens, hderives⟩ := Template.parse_eq_ok_iff.1 ha
  obtain ⟨us, hutokens, huderives⟩ := Template.parse_eq_ok_iff.1 hb
  have hts := (Scanner.tokens_eq_iff rfl).1 htokens
  have hus := (Scanner.tokens_eq_iff rfl).1 hutokens
  have hscans := hts.glue (Scanner.afterAll_of_derives hderives)
    (fun hlast hhead => hseam ⟨hlast, hhead⟩) hus
  refine Template.parse_eq_ok_iff.2 ⟨_, (Scanner.tokens_eq_iff rfl).2 ?_, hderives.glue huderives⟩
  show Scanner.Scans .text (a ++ b).toList _
  rw [String.toList_append]
  exact hscans

/-- The first one ends in a brace and the second one begins with an escaped delimiter. -/
theorem Template.parse_append_braces :
    Template.parse "\x7b$FOR i 1 2$\x7dx\x7b$END$\x7da\x7b" =
      .ok [.loop ⟨"i", .integer 1, .integer 2, none⟩ [.text "x"], .text "a\x7b"] ∧
    Template.parse "\\\x7b$b\x7b$=\"$\"$\x7d" = .ok [.text "\x7b$b", .echo [.string "$"]] ∧
    Template.parse ("\x7b$FOR i 1 2$\x7dx\x7b$END$\x7da\x7b" ++ "\\\x7b$b\x7b$=\"$\"$\x7d") =
      .ok [.loop ⟨"i", .integer 1, .integer 2, none⟩ [.text "x"], .text "a\x7b\x7b$b",
        .echo [.string "$"]] := by
  have hfirst : Template.parse "\x7b$FOR i 1 2$\x7dx\x7b$END$\x7da\x7b" =
      .ok [.loop ⟨"i", .integer 1, .integer 2, none⟩ [.text "x"], .text "a\x7b"] := by
    have htokens : tokenize "\x7b$FOR i 1 2$\x7dx\x7b$END$\x7da\x7b" = .ok ([.tagOpen,
        .keyword .loop, .element (.var "i"), .element (.integer 1), .element (.integer 2),
        .tagClose, .text "x", .tagOpen, .keyword .close, .tagClose, .text "a\x7b"] ++ [.eof]) := by
      decide +kernel
    exact Template.parse_of_tokenize htokens
  have hsecond : Template.parse "\\\x7b$b\x7b$=\"$\"$\x7d" =
      .ok [.text "\x7b$b", .echo [.string "$"]] := by
    have htokens : tokenize "\\\x7b$b\x7b$=\"$\"$\x7d" = .ok ([.text "\x7b$b", .tagOpen,
        .keyword .echo, .element (.string "$"), .tagClose] ++ [.eof]) := by
      decide +kernel
    exact Template.parse_of_tokenize htokens
  exact ⟨hfirst, hsecond, Template.parse_append hfirst hsecond (by decide)⟩

-- the two halves of a delimiter are text each on its own
example : Template.parse "\x7b" = .ok [.text "\x7b"] ∧ Template.parse "$" = .ok [.text "$"] ∧
    Template.parse ("\x7b" ++ "$") = .error .unterminatedTag := by
  have hbrace : tokenize "\x7b" = .ok ([.text "\x7b"] ++ [.eof]) := by decide +kernel
  have hdollar : tokenize "$" = .ok ([.text "$"] ++ [.eof]) := by decide +kernel
  have hboth : tokenize ("\x7b" ++ "$") = .ok ([.tagOpen] ++ [.eof]) := by decide +kernel
  exact ⟨Template.parse_of_tokenize hbrace, Template.parse_of_tokenize hdollar,
    Template.parse_of_tokenize hboth⟩

end TagTemplate
