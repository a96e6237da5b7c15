import TagTemplate.Template.Reader

/-! The grammar of templates, and the reader's agreement with it. The reader is a machine over
tokens that hangs a block into the tree only at its END; the grammar is a relation between whole
lists of tokens and trees. What the machine holds in the midst of a template is put together
again by `Reads`, which every token it accepts preserves. -/

namespace TagTemplate

/-- What the elements in the opening tag of a FOR block mean: a variable, the start and the end,
with the step between these two if there is one; only elements that stand for a value. -/
inductive LoopHead.Spelled : List Element → LoopHead → Prop
  | three {name : String} {start stop : Element} : start.isData = true → stop.isData = true →
      Spelled [.var name, start, stop] ⟨name, start, stop, none⟩
  | four {name : String} {start step stop : Element} : start.isData = true → step.isData = true →
      stop.isData = true → Spelled [.var name, start, step, stop] ⟨name, start, stop, some step⟩

def elementTokens (elements : List Element) : List Token := elements.map .element

def echoTag (elements : List Element) : List Token :=
  .tagOpen :: .keyword .echo :: elementTokens elements ++ [.tagClose]

def loopTag (elements : List Element) : List Token :=
  .tagOpen :: .keyword .loop :: elementTokens elements ++ [.tagClose]

def endTag : List Token := [.tagOpen, .keyword .close, .tagClose]

/-- The trees that lists of tokens spell, item after item: text, an echo tag, or a FOR block with
further items between its tags. -/
inductive Derives : List Token → List Node → Prop
  | done : Derives [] []
  | text {s : String} {ts : List Token} {ns : List Node} : Derives ts ns →
      Derives (.text s :: ts) (.text s :: ns)
  | echo {elements : List Element} {ts : List Token} {ns : List Node} : Derives ts ns →
      Derives (echoTag elements ++ ts) (.echo elements :: ns)
  | loop {elements : List Element} {head : LoopHead} {inner ts : List Token}
      {body ns : List Node} : LoopHead.Spelled elements head → Derives inner body → Derives ts ns →
      Derives (loopTag elements ++ inner ++ endTag ++ ts) (.loop head body :: ns)

theorem Derives.append {ts us : List Token} {ns ms : List Node} (h : Derives ts ns)
    (h' : Derives us ms) : Derives (ts ++ us) (ns ++ ms) := by
  induction h with
  | done => exact h'
  | text _ ih => exact .text ih
  | echo _ ih =>
    rw [List.append_assoc]
    exact .echo ih
  | loop hhead hbody _ _ ih =>
    rw [List.append_assoc]
    exact .loop hhead hbody ih

theorem LoopHead.ofElements_eq_ok_iff {elements : List Element} {head : LoopHead} :
    LoopHead.ofElements elements = .ok head ↔ LoopHead.Spelled elements head := by
  refine ⟨fun h => ?_, fun h => ?_⟩
  · unfold LoopHead.ofElements at h
    split at h
    · cases h
    · rename_i hnone
      have hdata : ∀ e ∈ elements, e.isData = true := by simpa using hnone
      split at h
      · cases h
        exact .three (hdata _ (by simp)) (hdata _ (by simp))
      · cases h
        exact .four (hdata _ (by simp)) (hdata _ (by simp)) (hdata _ (by simp))
      · cases h
      · cases h
      · cases h
  · have hvar (name : String) : (Element.var name).isData = true := rfl
    cases h with
    | three hstart hstop => simp [LoopHead.ofElements, hvar, hstart, hstop]
    | four hstart hstep hstop => simp [LoopHead.ofElements, hvar, hstart, hstep, hstop]

namespace Template

/-! ## The steps of the reader -/

/-- All the steps that the reader can take. -/
inductive Step : Reader → Token → Reader → Prop
  | text {s nodes blocks} : Step ⟨.outside, nodes, blocks⟩ (.text s)
      ⟨.outside, .text s :: nodes, blocks⟩
  | open {nodes blocks} : Step ⟨.outside, nodes, blocks⟩ .tagOpen ⟨.opened, nodes, blocks⟩
  | startLoop {nodes blocks} : Step ⟨.opened, nodes, blocks⟩ (.keyword .loop)
      ⟨.inLoop [], nodes, blocks⟩
  | startEcho {nodes blocks} : Step ⟨.opened, nodes, blocks⟩ (.keyword .echo)
      ⟨.inEcho [], nodes, blocks⟩
  | startClose {nodes blocks} : Step ⟨.opened, nodes, blocks⟩ (.keyword .close)
      ⟨.closing, nodes, blocks⟩
  | loopElement {es e nodes blocks} : Step ⟨.inLoop es, nodes, blocks⟩ (.element e)
      ⟨.inLoop (e :: es), nodes, blocks⟩
  | echoElement {es e nodes blocks} : Step ⟨.inEcho es, nodes, blocks⟩ (.element e)
      ⟨.inEcho (e :: es), nodes, blocks⟩
  | endLoop {es head nodes blocks} : LoopHead.Spelled es.reverse head →
      Step ⟨.inLoop es, nodes, blocks⟩ .tagClose ⟨.outside, [], ⟨head, nodes⟩ :: blocks⟩
  | endEcho {es nodes blocks} : Step ⟨.inEcho es, nodes, blocks⟩ .tagClose
      ⟨.outside, .echo es.reverse :: nodes, blocks⟩
  | endClose {head nodes before blocks} :
      Step ⟨.closing, nodes, ⟨head, before⟩ :: blocks⟩ .tagClose
        ⟨.outside, .loop head nodes.reverse :: before, blocks⟩

theorem step_of_feed {r r' : Reader} {t : Token} (h : r.feed t = .ok r') : Step r t r' := by
  obtain ⟨place, nodes, blocks⟩ := r
  cases place with
  | outside =>
    cases t with
    | text s => cases h; exact .text
    | tagOpen => cases h; exact .open
    | _ => cases h
  | opened =>
    cases t with
    | keyword word =>
      cases word with
      | loop => cases h; exact .startLoop
      | echo => cases h; exact .startEcho
      | close => cases h; exact .startClose
    | _ => cases h
  | inLoop es =>
    cases t with
    | element e => cases h; exact .loopElement
    | tagClose =>
      cases hhead : LoopHead.ofElements es.reverse with
      | error e => simp [Reader.feed, hhead, bind, Except.bind] at h
      | ok head =>
        simp only [Reader.feed, hhead, bind, Except.bind] at h
        cases h
        exact .endLoop (LoopHead.ofElements_eq_ok_iff.1 hhead)
    | _ => cases h
  | inEcho es =>
    cases t with
    | element e => cases h; exact .echoElement
    | tagClose => cases h; exact .endEcho
    | _ => cases h
  | closing =>
    cases t with
    | tagClose =>
      cases blocks with
      | nil => cases h
      | cons block outer => cases h; exact .endClose
    | _ => cases h

theorem feed_of_step {r r' : Reader} {t : Token} (h : Step r t r') : r.feed t = .ok r' := by
  cases h with
  | endLoop hhead =>
    simp only [Reader.feed, LoopHead.ofElements_eq_ok_iff.2 hhead]
    rfl
  | _ => rfl

/-! ## What the reader holds -/

/-- The tokens that bring the reader where it stands: those of the nodes and the open blocks that
it keeps, and the part of the current tag. -/
inductive Reads : List Token → Reader → Prop
  | level {ts nodes} : Derives ts nodes.reverse → Reads ts ⟨.outside, nodes, []⟩
  | block {ts inner elements head before nodes outer} : Reads ts ⟨.outside, before, outer⟩ →
      LoopHead.Spelled elements head → Derives inner nodes.reverse →
      Reads (ts ++ loopTag elements ++ inner) ⟨.outside, nodes, ⟨head, before⟩ :: outer⟩
  | opened {ts nodes blocks} : Reads ts ⟨.outside, nodes, blocks⟩ →
      Reads (ts ++ [.tagOpen]) ⟨.opened, nodes, blocks⟩
  | inLoop {ts es nodes blocks} : Reads ts ⟨.outside, nodes, blocks⟩ →
      Reads (ts ++ .tagOpen :: .keyword .loop :: elementTokens es.reverse)
        ⟨.inLoop es, nodes, blocks⟩
  | inEcho {ts es nodes blocks} : Reads ts ⟨.outside, nodes, blocks⟩ →
      Reads (ts ++ .tagOpen :: .keyword .echo :: elementTokens es.reverse)
        ⟨.inEcho es, nodes, blocks⟩
  | closing {ts nodes blocks} : Reads ts ⟨.outside, nodes, blocks⟩ →
      Reads (ts ++ [.tagOpen, .keyword .close]) ⟨.closing, nodes, blocks⟩

/-- A complete item goes to the nodes of the current level. -/
theorem Reads.item {ts us : List Token} {nodes : List Node} {blocks : List OpenBlock} {n : Node}
    (h : Reads ts ⟨.outside, nodes, blocks⟩) (hn : Derives us [n]) :
    Reads (ts ++ us) ⟨.outside, n :: nodes, blocks⟩ := by
  cases h with
  | level hnodes =>
    exact .level (by rw [List.reverse_cons]; exact hnodes.append hn)
  | block hbefore hhead hnodes =>
    rw [List.append_assoc]
    exact .block hbefore hhead (by rw [List.reverse_cons]; exact hnodes.append hn)

theorem elementTokens_snoc (es : List Element) (e : Element) :
    elementTokens es.reverse ++ [.element e] = elementTokens (e :: es).reverse := by
  simp [elementTokens]

theorem Reads.step {ts : List Token} {r r' : Reader} {t : Token} (h : Reads ts r)
    (hstep : Step r t r') : Reads (ts ++ [t]) r' := by
  cases hstep with
  | text => exact h.item (.text .done)
  | «open» => exact .opened h
  | startLoop =>
    cases h with
    | opened h => rw [List.append_assoc]; exact @Reads.inLoop _ [] _ _ h
  | startEcho =>
    cases h with
    | opened h => rw [List.append_assoc]; exact @Reads.inEcho _ [] _ _ h
  | startClose =>
    cases h with
    | opened h => rw [List.append_assoc]; exact .closing h
  | loopElement =>
    cases h with
    | inLoop h =>
      rw [List.append_assoc, List.cons_append, List.cons_append, elementTokens_snoc]
      exact .inLoop h
  | echoElement =>
    cases h with
    | inEcho h =>
      rw [List.append_assoc, List.cons_append, List.cons_append, elementTokens_snoc]
      exact .inEcho h
  | endLoop hhead =>
    cases h with
    | inLoop h =>
      rw [List.append_assoc, ← List.append_nil (_ ++ _)]
      exact .block h hhead .done
  | endEcho =>
    cases h with
    | inEcho h =>
      rw [List.append_assoc]
      exact h.item (by simpa [echoTag] using Derives.echo .done)
  | endClose =>
    -- the only step that looks into the open blocks: the innermost one becomes an item of its level
    cases h with
    | closing h =>
      cases h with
      | block hbefore hhead hnodes =>
        rw [List.append_assoc, List.append_assoc, List.append_assoc]
        exact hbefore.item (by simpa [endTag] using Derives.loop hhead hnodes .done)

theorem Reads.run {ts us : List Token} {r r' : Reader} (h : Reads ts r)
    (hrun : us.foldlM Reader.feed r = .ok r') : Reads (ts ++ us) r' := by
  induction us generalizing ts r with
  | nil =>
    cases hrun
    rw [List.append_nil]
    exact h
  | cons t us ih =>
    rw [List.foldlM_cons] at hrun
    cases hfeed : r.feed t with
    | error e => rw [hfeed] at hrun; cases hrun
    | ok r₁ =>
      rw [hfeed] at hrun
      have hnext := ih (h.step (step_of_feed hfeed)) hrun
      rwa [List.append_assoc] at hnext

/-! ## The reader reads the trees of the grammar -/

theorem foldlM_feed_append {ts us : List Token} {r r' : Reader}
    (h : ts.foldlM Reader.feed r = .ok r') :
    (ts ++ us).foldlM Reader.feed r = us.foldlM Reader.feed r' := by
  rw [List.foldlM_append, h]
  rfl

theorem foldlM_feed_cons {t : Token} {ts : List Token} {r r' : Reader} (h : Step r t r') :
    (t :: ts).foldlM Reader.feed r = ts.foldlM Reader.feed r' := by
  rw [List.foldlM_cons, feed_of_step h]
  rfl

/-- Elements are gathered alike in every kind of tag that takes them. -/
theorem feed_elements {place : List Element → Place}
    (htakes : ∀ {es e nodes blocks}, Step ⟨place es, nodes, blocks⟩ (.element e)
      ⟨place (e :: es), nodes, blocks⟩)
    (elements es : List Element) (nodes : List Node) (blocks : List OpenBlock) :
    (elementTokens elements).foldlM Reader.feed ⟨place es, nodes, blocks⟩ =
      .ok ⟨place (elements.reverse ++ es), nodes, blocks⟩ := by
  induction elements generalizing es with
  | nil => rfl
  | cons e elements ih =>
    rw [elementTokens, List.map_cons, foldlM_feed_cons htakes, ← elementTokens, ih]
    simp

theorem feed_echoTag (elements : List Element) (nodes : List Node) (blocks : List OpenBlock) :
    (echoTag elements).foldlM Reader.feed ⟨.outside, nodes, blocks⟩ =
      .ok ⟨.outside, .echo elements :: nodes, blocks⟩ := by
  rw [echoTag, List.cons_append, List.cons_append, foldlM_feed_cons .open,
    foldlM_feed_cons .startEcho, foldlM_feed_append (feed_elements .echoElement elements [] _ _),
    foldlM_feed_cons .endEcho]
  simp [pure, Except.pure]

theorem feed_loopTag {elements : List Element} {head : LoopHead}
    (h : LoopHead.Spelled elements head) (nodes : List Node) (blocks : List OpenBlock) :
    (loopTag elements).foldlM Reader.feed ⟨.outside, nodes, blocks⟩ =
      .ok ⟨.outside, [], ⟨head, nodes⟩ :: blocks⟩ := by
  rw [loopTag, List.cons_append, List.cons_append, foldlM_feed_cons .open,
    foldlM_feed_cons .startLoop, foldlM_feed_append (feed_elements .loopElement elements [] _ _),
    foldlM_feed_cons (.endLoop (by simpa using h))]
  rfl

theorem feed_endTag (head : LoopHead) (nodes before : List Node) (blocks : List OpenBlock) :
    endTag.foldlM Reader.feed ⟨.outside, nodes, ⟨head, before⟩ :: blocks⟩ =
      .ok ⟨.outside, .loop head nodes.reverse :: before, blocks⟩ := rfl

/-- The tokens of a list of nodes put them in front of what the reader holds, wherever it is. -/
theorem feed_of_derives {ts : List Token} {ns : List Node} (h : Derives ts ns) (nodes : List Node)
    (blocks : List OpenBlock) :
    ts.foldlM Reader.feed ⟨.outside, nodes, blocks⟩ =
      .ok ⟨.outside, ns.reverse ++ nodes, blocks⟩ := by
  induction h generalizing nodes blocks with
  | done => rfl
  | text _ ih =>
    rw [foldlM_feed_cons .text, ih]
    simp
  | echo _ ih =>
    rw [foldlM_feed_append (feed_echoTag _ _ _), ih]
    simp
  | @loop elements head inner ts body ns hhead _ _ ihbody ih =>
    have hinner := ihbody [] (⟨head, nodes⟩ :: blocks)
    rw [List.append_assoc, List.append_assoc, foldlM_feed_append (feed_loopTag hhead _ _),
      foldlM_feed_append hinner, foldlM_feed_append (feed_endTag _ _ _ _), ih]
    simp

theorem finish_eq_ok_iff {r : Reader} {t : Template} :
    r.finish = .ok t ↔ r = ⟨.outside, t.reverse, []⟩ := by
  obtain ⟨place, nodes, blocks⟩ := r
  cases place with
  | outside =>
    cases blocks with
    | nil => simp [Reader.finish, List.reverse_eq_iff]
    | cons block outer => simp [Reader.finish]
  | _ => simp [Reader.finish]

/-- The reader comes through a list of tokens with a tree exactly when they spell this tree. -/
theorem read_eq_ok_iff {ts : List Token} {t : Template} :
    (ts.foldlM Reader.feed Reader.start >>= Reader.finish) = .ok t ↔ Derives ts t := by
  refine ⟨fun h => ?_, fun h => ?_⟩
  · cases hrun : ts.foldlM Reader.feed Reader.start with
    | error e => rw [hrun] at h; cases h
    | ok r =>
      rw [hrun] at h
      obtain rfl := finish_eq_ok_iff.1 h
      have hreads := Reads.run (.level .done) hrun
      cases hreads with
      | level hderives => simpa using hderives
  · have hrun := feed_of_derives h [] []
    rw [List.append_nil] at hrun
    rw [Reader.start, hrun]
    exact finish_eq_ok_iff.2 rfl

/-! ## The grammar -/

theorem tokenize_eq_ok_iff {source : String} {ts : List Token} :
    tokenize source = .ok (ts ++ [.eof]) ↔ (Scanner.ofString source).tokens = (ts, none) := by
  unfold tokenize
  split
  · rename_i heq
    rw [heq]
    simp
  · rename_i heq
    rw [heq]
    simp

theorem parse_of_tokenize {source : String} {ts : List Token}
    (h : tokenize source = .ok (ts ++ [.eof])) :
    parse source = ts.foldlM Reader.feed Reader.start >>= Reader.finish := by
  unfold parse
  rw [tokenize_eq_ok_iff.1 h]

/-- Every tree but those of the grammar makes the reader fail; a fault of the scanner does so
behind all tokens before it. -/
theorem parse_eq_ok_iff {source : String} {t : Template} :
    parse source = .ok t ↔ ∃ ts, (Scanner.ofString source).tokens = (ts, none) ∧ Derives ts t := by
  unfold parse
  obtain ⟨ts, stop⟩ := (Scanner.ofString source).tokens
  cases stop with
  | none =>
    simp only [Prod.mk.injEq, and_true, exists_eq_left']
    exact read_eq_ok_iff
  | some e =>
    simp only [Prod.mk.injEq, reduceCtorEq, and_false, false_and, exists_false, iff_false]
    cases ts.foldlM Reader.feed Reader.start <;> exact fun h => nomatch h

/-- A template has exactly the trees that the grammar gives the tokens of its source. -/
theorem parses_iff_derives (source : String) (t : Template) :
    parse source = .ok t ↔ ∃ ts, tokenize source = .ok (ts ++ [.eof]) ∧ Derives ts t := by
  simp only [tokenize_eq_ok_iff]
  exact parse_eq_ok_iff

end Template

end TagTemplate
