import TagTemplate.Proofs.Canonical

/-! Trees that agree when doubles are compared as numbers. Canonical trees hold finite doubles only,
so such a tree agrees with itself, and a tree that it agrees with is canonical too. -/

namespace TagTemplate

theorem Double.compare?_self {x : Double} (h : x.isFinite = true) :
    x.compare? x = some .eq := by
  cases x with
  | finite negative units fits => simp [Double.compare?]
  | _ => cases h

/-- Only a finite number is equal to a finite one. -/
theorem Double.isFinite_of_compare? {x y : Double} (h : x.compare? y = some .eq)
    (hx : x.isFinite = true) : y.isFinite = true := by
  cases y with
  | finite => rfl
  | nan => cases x <;> cases h
  | infinity negative =>
    cases x with
    | nan => cases hx
    | infinity => cases hx
    | finite negative' units fits =>
      have hbelow := fits.1
      have hpos := Double.ceiling_pos
      have hrank : Double.signed negative' units = Double.signed negative Double.ceiling := by
        simpa [Double.compare?, Double.rank] using h
      generalize Double.ceiling = ceiling at hbelow hpos hrank
      cases negative <;> cases negative' <;> simp [Double.signed] at hrank <;> omega

namespace Element

theorem Canonical.agrees_self {e : Element} (h : e.Canonical) : e.agrees e = true := by
  cases e with
  | double x => exact beq_iff_eq.2 (Double.compare?_self h)
  | _ => exact beq_self_eq_true _

theorem agrees_cases {e f : Element} (h : e.agrees f = true) :
    e = f ∨ ∃ x y, e = .double x ∧ f = .double y ∧ x.compare? y = some .eq := by
  unfold agrees at h
  split at h
  · exact .inr ⟨_, _, rfl, rfl, beq_iff_eq.1 h⟩
  · exact .inl (beq_iff_eq.1 h)

theorem Canonical.of_agrees {e f : Element} (h : e.agrees f = true) (he : e.Canonical) :
    f.Canonical := by
  rcases agrees_cases h with rfl | ⟨x, y, rfl, rfl, hxy⟩
  · exact he
  · exact Double.isFinite_of_compare? hxy he

theorem isData_of_agrees {e f : Element} (h : e.agrees f = true) : f.isData = e.isData := by
  rcases agrees_cases h with rfl | ⟨x, y, rfl, rfl, -⟩
  · rfl
  · rfl

end Element

theorem elementsAgree_self {elements : List Element} (h : ∀ e ∈ elements, e.Canonical) :
    elementsAgree elements elements = true := by
  induction elements with
  | nil => rfl
  | cons e elements ih =>
    obtain ⟨he, helements⟩ := List.forall_mem_cons.1 h
    simp [elementsAgree, he.agrees_self, ih helements]

theorem canonical_of_elementsAgree {es fs : List Element} (h : elementsAgree es fs = true)
    (hes : ∀ e ∈ es, e.Canonical) : ∀ f ∈ fs, f.Canonical := by
  induction es generalizing fs with
  | nil =>
    cases fs with
    | nil => exact hes
    | cons f fs => cases h
  | cons e es ih =>
    cases fs with
    | nil => cases h
    | cons f fs =>
      obtain ⟨he, hes⟩ := List.forall_mem_cons.1 hes
      obtain ⟨hef, hrest⟩ : e.agrees f = true ∧ elementsAgree es fs = true := by
        simpa [elementsAgree] using h
      exact List.forall_mem_cons.2 ⟨he.of_agrees hef, ih hrest hes⟩

namespace LoopHead

theorem Canonical.agrees_self {head : LoopHead} (h : head.Canonical) :
    head.agrees head = true := by
  obtain ⟨name, start, stop, step⟩ := head
  have hstart : start.agrees start = true := h.start.2.agrees_self
  have hstop : stop.agrees stop = true := h.stop.2.agrees_self
  cases step with
  | none => simp [agrees, hstart, hstop]
  | some step =>
    have hstep : step.agrees step = true := (h.step step rfl).2.agrees_self
    simp [agrees, hstart, hstop, hstep]

theorem Canonical.of_agrees {a b : LoopHead} (h : a.agrees b = true) (ha : a.Canonical) :
    b.Canonical := by
  have hbound {e f : Element} (hef : e.agrees f = true) (he : e.isData = true ∧ e.Canonical) :
      f.isData = true ∧ f.Canonical :=
    ⟨by rw [Element.isData_of_agrees hef]; exact he.1, he.2.of_agrees hef⟩
  obtain ⟨name, start, stop, step⟩ := a
  obtain ⟨name', start', stop', step'⟩ := b
  simp only [agrees, Bool.and_eq_true, beq_iff_eq] at h
  obtain ⟨⟨⟨rfl, hstart⟩, hstop⟩, hstep⟩ := h
  refine ⟨ha.name, hbound hstart ha.start, hbound hstop ha.stop, ?_⟩
  intro e he
  cases step with
  | none =>
    cases he
    cases hstep
  | some s =>
    cases he
    exact hbound hstep (ha.step s rfl)

end LoopHead

mutual

theorem Node.Canonical.agrees_self : ∀ {n : Node}, n.Canonical → n.agrees n = true
  | .text s, _ => by simp [Node.agrees]
  | .echo _, h => elementsAgree_self h
  | .loop _ _, h => by
    simp [Node.agrees, h.1.agrees_self, Template.Canonical.agrees_self h.2]

theorem Template.Canonical.agrees_self :
    ∀ {ns : List Node}, Template.Canonical ns → Template.agrees ns ns = true
  | [], _ => rfl
  | _ :: _, h => by
    simp [Template.agrees, Node.Canonical.agrees_self h.1, Template.Canonical.agrees_self h.2.2]

end

theorem Node.isText_of_agrees {n m : Node} (h : n.agrees m = true) : m.isText = n.isText := by
  cases n <;> cases m <;> first | rfl | cases h

theorem isText_head?_of_agrees {ns ms : List Node} (h : Template.agrees ns ms = true)
    (hns : ∀ n ∈ ns.head?, n.isText = false) : ∀ m ∈ ms.head?, m.isText = false := by
  intro m hm
  cases ms with
  | nil => cases hm
  | cons m ms =>
    cases hm
    cases ns with
    | nil => cases h
    | cons n ns =>
      obtain ⟨hnm, -⟩ : n.agrees m = true ∧ Template.agrees ns ms = true := by
        simpa [Template.agrees] using h
      rw [Node.isText_of_agrees hnm]
      exact hns n rfl

mutual

theorem Node.Canonical.of_agrees :
    ∀ {n m : Node}, n.agrees m = true → n.Canonical → m.Canonical
  | .text s, .text s', h, hs => by
    obtain rfl : s = s' := by simpa [Node.agrees] using h
    exact hs
  | .echo es, .echo fs, h, hes => canonical_of_elementsAgree h hes
  | .loop a body, .loop b other, h, hloop => by
    obtain ⟨hhead, hbody⟩ : a.agrees b = true ∧ Template.agrees body other = true := by
      simpa [Node.agrees] using h
    exact ⟨hloop.1.of_agrees hhead, Template.Canonical.of_agrees hbody hloop.2⟩
  | .text _, .echo _, h, _ | .text _, .loop _ _, h, _ | .echo _, .text _, h, _
  | .echo _, .loop _ _, h, _ | .loop _ _, .text _, h, _ | .loop _ _, .echo _, h, _ => by cases h

theorem Template.Canonical.of_agrees :
    ∀ {ns ms : List Node}, Template.agrees ns ms = true → Template.Canonical ns →
      Template.Canonical ms
  | [], [], _, _ => trivial
  | n :: ns, m :: ms, h, hns => by
    obtain ⟨hnm, hrest⟩ : n.agrees m = true ∧ Template.agrees ns ms = true := by
      simpa [Template.agrees] using h
    refine ⟨Node.Canonical.of_agrees hnm hns.1, ?_, Template.Canonical.of_agrees hrest hns.2.2⟩
    intro htext
    rw [Node.isText_of_agrees hnm] at htext
    exact isText_head?_of_agrees hrest (hns.2.1 htext)
  | [], _ :: _, h, _ | _ :: _, [], h, _ => by cases h

end

end TagTemplate
