import Mathlib.Data.List.Infix
import TagTemplate.Proofs.Grammar

/-! How errors of blocks are told apart. Where every single tag is in order, only the order of the
FOR and END tags can be at fault, and their running balance says how: the blocks that the reader
holds open are as many as the balance, so it fails where the balance would go below zero, and at the
end for what is left open. -/

namespace TagTemplate

/-! ## Sources made of whole tags -/

/-- A text, or a whole tag. -/
inductive Item where
  | text (s : String)
  | echo (elements : List Element)
  | opening (elements : List Element)
  | closing

namespace Item

def tokens : Item → List Token
  | .text s => [.text s]
  | .echo elements => echoTag elements
  | .opening elements => loopTag elements
  | .closing => endTag

/-- A FOR tag takes a variable and two or three elements that stand for a value. -/
def WellFormed : Item → Prop
  | .opening elements => ∃ head, LoopHead.Spelled elements head
  | _ => True

def isOpening : Item → Bool
  | .opening _ => true
  | _ => false

def isClosing : Item → Bool
  | .closing => true
  | _ => false

end Item

/-- The FOR tags less the END tags. -/
def depth (items : List Item) : Int := items.countP Item.isOpening - items.countP Item.isClosing

@[simp] theorem depth_nil : depth [] = 0 := rfl

theorem depth_cons (item : Item) (items : List Item) :
    depth (item :: items) = depth [item] + depth items := by
  simp only [depth, List.countP_cons, List.countP_nil]
  omega

/-- The balance sinks below the blocks that are open before the items. -/
def Sinks (opened : Nat) (items : List Item) : Prop :=
  ∃ before, before <+: items ∧ opened + depth before < 0

theorem sinks_cons_iff {opened : Nat} {item : Item} {items : List Item} :
    Sinks opened (item :: items) ↔
      ∃ before, before <+: items ∧ opened + depth [item] + depth before < 0 := by
  constructor
  · intro h
    obtain ⟨before, hbefore, hneg⟩ := h
    rcases List.prefix_cons_iff.1 hbefore with rfl | ⟨rest, rfl, hrest⟩
    · rw [depth_nil] at hneg
      omega
    · rw [depth_cons] at hneg
      exact ⟨rest, hrest, by omega⟩
  · intro h
    obtain ⟨before, hbefore, hneg⟩ := h
    refine ⟨item :: before, List.cons_prefix_cons.2 ⟨rfl, hbefore⟩, ?_⟩
    rw [depth_cons]
    omega

namespace Template

/-! ## The blocks that are open -/

/-- A whole tag changes the number of open blocks by its own balance. -/
theorem feed_item {item : Item} (hitem : item.WellFormed) (nodes : List Node)
    {blocks : List OpenBlock} (hopen : 0 ≤ blocks.length + depth [item]) :
    ∃ nodes' blocks', item.tokens.foldlM Reader.feed ⟨.outside, nodes, blocks⟩ =
      .ok ⟨.outside, nodes', blocks'⟩ ∧ (blocks'.length : Int) = blocks.length + depth [item] := by
  cases item with
  | text s => exact ⟨_, _, rfl, (Int.add_zero _).symm⟩
  | echo elements => exact ⟨_, _, feed_echoTag elements nodes blocks, (Int.add_zero _).symm⟩
  | opening elements =>
    obtain ⟨head, hhead⟩ := hitem
    exact ⟨_, _, feed_loopTag hhead nodes blocks, rfl⟩
  | closing =>
    cases blocks with
    | nil => exact absurd hopen (by decide)
    | cons block outer =>
      refine ⟨_, _, feed_endTag block.head nodes block.before outer, ?_⟩
      rw [List.length_cons]
      show (outer.length : Int) = (outer.length + 1 : Nat) + -1
      omega

/-- Only an END tag lowers the number of open blocks, and it fails where there is none. -/
theorem feed_item_of_neg {item : Item} {nodes : List Node} {blocks : List OpenBlock}
    (hneg : blocks.length + depth [item] < 0) :
    item.tokens.foldlM Reader.feed ⟨.outside, nodes, blocks⟩ = .error .nothingToEnd := by
  have hlength : (0 : Int) ≤ blocks.length := Int.natCast_nonneg _
  cases item with
  | text s =>
    have hdepth : depth [.text s] = 0 := rfl
    omega
  | echo elements =>
    have hdepth : depth [.echo elements] = 0 := rfl
    omega
  | opening elements =>
    have hdepth : depth [.opening elements] = 1 := rfl
    omega
  | closing =>
    have hdepth : depth [.closing] = -1 := rfl
    cases blocks with
    | nil => rfl
    | cons block outer =>
      rw [List.length_cons] at hneg
      omega

/-- The reader fails where the balance sinks below the blocks that are open, and else it goes on
to hold as many of them as the balance says. -/
theorem feed_items {items : List Item} (hitems : ∀ item ∈ items, item.WellFormed)
    (nodes : List Node) (blocks : List OpenBlock) :
    (Sinks blocks.length items ∧ (items.flatMap Item.tokens).foldlM Reader.feed
        ⟨.outside, nodes, blocks⟩ = .error .nothingToEnd) ∨
      (¬Sinks blocks.length items ∧ ∃ nodes' blocks',
        (items.flatMap Item.tokens).foldlM Reader.feed ⟨.outside, nodes, blocks⟩ =
          .ok ⟨.outside, nodes', blocks'⟩ ∧
        (blocks'.length : Int) = blocks.length + depth items) := by
  induction items generalizing nodes blocks with
  | nil =>
    refine .inr ⟨?_, nodes, blocks, rfl, (Int.add_zero _).symm⟩
    rintro ⟨before, hbefore, hneg⟩
    rw [List.prefix_nil.1 hbefore, depth_nil] at hneg
    omega
  | cons item items ih =>
    obtain ⟨hitem, hitems⟩ := List.forall_mem_cons.1 hitems
    rw [List.flatMap_cons, sinks_cons_iff]
    by_cases hneg : blocks.length + depth [item] < 0
    · refine .inl ⟨⟨[], List.nil_prefix, by rw [depth_nil]; omega⟩, ?_⟩
      rw [List.foldlM_append, feed_item_of_neg hneg]
      rfl
    · obtain ⟨nodes₁, blocks₁, hfeed, hlength⟩ := feed_item hitem nodes (Int.not_lt.1 hneg)
      rw [foldlM_feed_append hfeed, depth_cons item items, ← Int.add_assoc, ← hlength]
      exact ih hitems nodes₁ blocks₁

/-! ## The errors -/

/-- The three ways in which a source of whole tags can be read. -/
theorem parse_cases {source : String} {items : List Item}
    (hsource : tokenize source = .ok (items.flatMap Item.tokens ++ [.eof]))
    (hitems : ∀ item ∈ items, item.WellFormed) :
    (Sinks 0 items ∧ parse source = .error .nothingToEnd) ∨
      (¬Sinks 0 items ∧ ∃ n : Nat, 0 < n ∧ depth items = n ∧ parse source = .error (.unclosed n)) ∨
      (¬Sinks 0 items ∧ depth items = 0 ∧ ∃ t, parse source = .ok t) := by
  rw [parse_of_tokenize hsource]
  rcases feed_items hitems [] [] with ⟨hsinks, hrun⟩ | ⟨hsinks, nodes, blocks, hrun, hlength⟩
  · refine .inl ⟨hsinks, ?_⟩
    rw [Reader.start, hrun]
    rfl
  · have hdepth : depth items = blocks.length := by
      rw [List.length_nil, Int.natCast_zero, Int.zero_add] at hlength
      exact hlength.symm
    rw [Reader.start, hrun]
    cases blocks with
    | nil => exact .inr (.inr ⟨hsinks, hdepth, nodes.reverse, rfl⟩)
    | cons block outer => exact .inr (.inl ⟨hsinks, outer.length + 1, Nat.succ_pos _, hdepth, rfl⟩)

end Template

/-- A source made of texts and of tags that are all in order by themselves. It fails for an END tag
that has nothing to end if at some place more END tags than FOR tags have been read; else it fails
for as many unclosed blocks as there are FOR tags more than END tags in all; and it is read as a
template if they are equally many. -/
theorem parse_follows_depth {source : String} {items : List Item}
    (hsource : tokenize source = .ok (items.flatMap Item.tokens ++ [.eof]))
    (hitems : ∀ item ∈ items, item.WellFormed) :
    (Template.parse source = .error .nothingToEnd ↔
      ∃ before, before <+: items ∧ depth before < 0) ∧
    (∀ n, Template.parse source = .error (.unclosed n) ↔
      (∀ before, before <+: items → 0 ≤ depth before) ∧ 0 < n ∧ depth items = n) ∧
    ((∃ t, Template.parse source = .ok t) ↔
      (∀ before, before <+: items → 0 ≤ depth before) ∧ depth items = 0) := by
  have hsinks : Sinks 0 items ↔ ∃ before, before <+: items ∧ depth before < 0 := by
    simp only [Sinks, Int.natCast_zero, Int.zero_add]
  have hstays : ¬Sinks 0 items ↔ ∀ before, before <+: items → 0 ≤ depth before := by
    rw [hsinks]
    simp only [not_exists, not_and, Int.not_lt]
  rw [← hsinks, ← hstays]
  rcases Template.parse_cases hsource hitems with
    ⟨hsinks, hparse⟩ | ⟨hnot, n, hpos, hdepth, hparse⟩ | ⟨hnot, hdepth, t, hparse⟩
  · simp [hparse, hsinks]
  · refine ⟨by simp [hparse, hnot], fun k => ?_, ?_⟩
    · rw [hparse, hdepth]
      constructor
      · rintro ⟨⟩
        exact ⟨hnot, hpos, rfl⟩
      · rintro ⟨-, -, hk⟩
        rw [Int.natCast_inj.1 hk]
    · rw [hparse, hdepth]
      constructor
      · rintro ⟨_, ⟨⟩⟩
      · rintro ⟨-, hzero⟩
        omega
  · refine ⟨by simp [hparse, hnot], fun k => ?_, ?_⟩
    · rw [hparse, hdepth]
      constructor
      · rintro ⟨⟩
      · rintro ⟨-, hk, hzero⟩
        omega
    · exact ⟨fun _ => ⟨hnot, hdepth⟩, fun _ => ⟨t, hparse⟩⟩

/-- A loop that is closed inside another one that is not. -/
def oneLeftOpen : List Item :=
  [.opening [.var "i", .integer 1, .integer 2], .text "a",
    .opening [.var "j", .integer 1, .integer 1, .var "i"], .echo [.var "j"], .closing, .text "b"]

theorem parse_follows_depth_oneLeftOpen :
    tokenize "\x7b$FOR i 1 2$\x7da\x7b$FOR j 1 1 i$\x7d\x7b$=j$\x7d\x7b$END$\x7db" =
      .ok (oneLeftOpen.flatMap Item.tokens ++ [.eof]) ∧
    (∀ item ∈ oneLeftOpen, item.WellFormed) ∧
    Template.parse "\x7b$FOR i 1 2$\x7da\x7b$FOR j 1 1 i$\x7d\x7b$=j$\x7d\x7b$END$\x7db" =
      .error (.unclosed 1) := by
  have hsource : tokenize
      "\x7b$FOR i 1 2$\x7da\x7b$FOR j 1 1 i$\x7d\x7b$=j$\x7d\x7b$END$\x7db" =
        .ok (oneLeftOpen.flatMap Item.tokens ++ [.eof]) := by decide +kernel
  have hitems : ∀ item ∈ oneLeftOpen, item.WellFormed := by
    simp only [oneLeftOpen, List.forall_mem_cons, List.not_mem_nil, false_implies, implies_true,
      and_true]
    exact ⟨⟨_, .three rfl rfl⟩, trivial, ⟨_, .four rfl rfl rfl⟩, trivial, trivial, trivial⟩
  have hstays : ∀ before, before <+: oneLeftOpen → 0 ≤ depth before := by
    intro before hbefore
    rw [← List.mem_inits] at hbefore
    revert before
    decide
  exact ⟨hsource, hitems,
    ((parse_follows_depth hsource hitems).2.1 1).2 ⟨hstays, Nat.one_pos, rfl⟩⟩

end TagTemplate
