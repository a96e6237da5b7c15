import TagTemplate.Proofs.Comparison
import TagTemplate.Render

/-! The variable of a loop can have any name that its body does not use. Under the loop the two
names have the same value, so the elements that were renamed keep theirs; a nested loop over the
old name hides the change. -/

namespace TagTemplate

/-! ## Renaming -/

def Element.rename (x y : String) : Element → Element
  | .var name => .var (if name = x then y else name)
  | e => e

/-- The bounds of a loop are outside of it, and the loop keeps its own variable. -/
def LoopHead.rename (x y : String) (head : LoopHead) : LoopHead :=
  ⟨head.name, head.start.rename x y, head.stop.rename x y, head.step.map (Element.rename x y)⟩

mutual

def Node.rename (x y : String) : Node → Node
  | .text s => .text s
  | .echo elements => .echo (elements.map (Element.rename x y))
  | .loop head body =>
    .loop (head.rename x y) (if head.name = x then body else Template.rename x y body)

/-- Writes `y` for the free occurrences of `x`, which are those outside of the loops over `x`. -/
def Template.rename (x y : String) : List Node → List Node
  | [] => []
  | n :: ns => n.rename x y :: Template.rename x y ns

end

/-- The second template is the first one with another variable in one of its loops, a name that
occurs nowhere in the body of that loop. -/
inductive Template.RenamesLoop : List Node → List Node → Prop
  | here {head : LoopHead} {body ns : List Node} {y : String} : y ∉ Template.names body →
      RenamesLoop (.loop head body :: ns)
        (.loop { head with name := y } (Template.rename head.name y body) :: ns)
  | inside {head : LoopHead} {body body' ns : List Node} : RenamesLoop body body' →
      RenamesLoop (.loop head body :: ns) (.loop head body' :: ns)
  | later {n : Node} {ns ns' : List Node} : RenamesLoop ns ns' → RenamesLoop (n :: ns) (n :: ns')

/-! ## The renamed template matches -/

section

variable {b b' : Bindings} {x y : String}

theorem Element.Matches.rename {e : Element} (hxy : b'.lookup y = b.lookup x)
    (h : ∀ name ∈ e.names, name ≠ x → b'.lookup name = b.lookup name) :
    e.Matches b b' (e.rename x y) := by
  cases e with
  | var name =>
    by_cases hname : name = x
    · simp only [Element.rename, hname, if_true]
      exact .var hxy
    · simp only [Element.rename, hname, if_false]
      exact .var (h name List.mem_cons_self hname)
  | _ => exact .constant nofun

theorem LoopHead.Matches.rename {head : LoopHead} (hxy : b'.lookup y = b.lookup x)
    (h : ∀ name ∈ head.names, name ≠ x → b'.lookup name = b.lookup name) :
    head.Matches (fun _ _ => True) b b' (head.rename x y) where
  name := trivial
  start := .rename hxy fun name hname => h name (by simp [LoopHead.names, hname])
  stop := .rename hxy fun name hname => h name (by simp [LoopHead.names, hname])
  step := by
    simp only [LoopHead.rename]
    cases hstep : head.step with
    | none => exact .none
    | some e =>
      refine .some (.rename hxy fun name hname => h name ?_)
      simp [LoopHead.names, hstep, hname]

/-- With `y` for `x` a template does not change its meaning where `y` has the value that `x` had
before. Nothing is said of `x` afterwards: only loops over `x` use it, and these bind it. -/
theorem Template.Matches.rename : ∀ {ns : List Node} {b b' : Bindings}, y ∉ Template.names ns →
    b'.lookup y = b.lookup x →
    (∀ name ∈ Template.names ns, name ≠ x → b'.lookup name = b.lookup name) →
      Template.Matches (fun _ _ => True) b b' ns (Template.rename x y ns)
  | [], _, _, _, _, _ => .nil
  | .text s :: ns, _, _, hy, hxy, h => .text (Template.Matches.rename hy hxy h)
  | .echo es :: ns, _, _, hy, hxy, h => by
    simp only [Template.names, Node.names, List.mem_append, not_or] at hy h
    refine .echo ?_ (Template.Matches.rename hy.2 hxy fun name hname => h name (.inr hname))
    rw [List.forall₂_map_right_iff]
    refine List.forall₂_same.2 fun e he => .rename hxy fun name hname => h name (.inl ?_)
    exact List.mem_flatMap.2 ⟨e, he, hname⟩
  | .loop head body :: ns, b, b', hy, hxy, h => by
    simp only [Template.names, Node.names, List.mem_append, not_or] at hy h
    obtain ⟨⟨hyhead, hybody⟩, hyrest⟩ := hy
    have hname : head.name ≠ y := by
      intro heq
      exact hyhead (by rw [← heq]; exact List.mem_cons_self)
    refine .loop (.rename hxy fun name hname => h name (.inl (.inl hname))) (fun v => ?_)
      (.rename hyrest hxy fun name hname => h name (.inr hname))
    show Template.Matches _ (b.bind head.name v) (b'.bind head.name v) body _
    by_cases hx : head.name = x
    · rw [if_pos hx]
      refine .of_names (fun _ => trivial) fun name hmem => ?_
      rw [Bindings.lookup_bind, Bindings.lookup_bind]
      by_cases hbound : head.name = name
      · rw [if_pos hbound, if_pos hbound]
      · rw [if_neg hbound, if_neg hbound]
        exact h name (.inl (.inr hmem)) fun heq => hbound (hx.trans heq.symm)
    · rw [if_neg hx]
      refine Template.Matches.rename hybody ?_ fun name hmem hne => ?_
      · rw [Bindings.lookup_bind, Bindings.lookup_bind, if_neg hname, if_neg hx, hxy]
      · rw [Bindings.lookup_bind, Bindings.lookup_bind, h name (.inl (.inr hmem)) hne]

theorem Template.RenamesLoop.matches {t t' : List Node} (h : Template.RenamesLoop t t') :
    Template.Matches (fun _ _ => True) b b t t' := by
  have hself (head : LoopHead) (b : Bindings) : head.Matches (fun _ _ => True) b b head :=
    .of_names (fun _ => trivial) fun _ _ => rfl
  induction h generalizing b with
  | @here head body ns y hy =>
    have hhead := hself head b
    refine .loop ⟨trivial, hhead.start, hhead.stop, hhead.step⟩ (fun v => .rename hy ?_ ?_)
      (.refl (fun _ => trivial) b ns)
    · rw [Bindings.lookup_bind, Bindings.lookup_bind, if_pos rfl, if_pos rfl]
    · intro name hmem hne
      have hy : y ≠ name := fun heq => hy (heq ▸ hmem)
      rw [Bindings.lookup_bind, Bindings.lookup_bind, if_neg hne.symm, if_neg hy]
  | inside _ ih => exact .loop (hself _ b) (fun _ => ih) (.refl (fun _ => trivial) b _)
  | later _ ih => exact .cons_of_names (fun _ => trivial) _ (fun _ _ => rfl) ih

end

/-! ## Running it -/

/-- The same halt, but for the loop that the fault of a zero step names. -/
inductive Halt.Alike : Halt → Halt → Prop
  | same {h : Halt} : Alike h h
  | zeroStep {x y : String} : Alike (.fault (.zeroStep x)) (.fault (.zeroStep y))

variable {σ : Type}

theorem MachineOn.Related.eq {m n : MachineOn σ} (h : m.Related (fun c d => d = c) n)
    (hbindings : n.bindings = m.bindings) : n = m := by
  obtain ⟨hsink, hcontext, hcount⟩ := h
  obtain ⟨sink, context, bindings, count⟩ := n
  cases hsink; cases hcontext; cases hbindings; cases hcount
  rfl

variable [Writer σ]

/-- Runs that may differ in their bindings, and in the loop that a zero step is found in. -/
def upToNames : Comparison σ σ :=
  .upTo Context.hidden_eq (fun h => by rw [h]) fun _ => Halt.Alike.same

/-- The two visits of a template with and without a renamed loop. -/
theorem visits_renamed (sink : σ) (context : Context) {t t' : Template}
    (h : Template.RenamesLoop t t') (more : Nat) :
    let v := t.visit more (Machine.start sink context)
    let v' := t'.visit more (Machine.start sink context)
    v'.machine = v.machine ∧ Option.Rel Halt.Alike v.halt v'.halt := by
  intro v v'
  have hstart : (Machine.start sink context).Related (fun c d => d = c)
      (Machine.start sink context) := ⟨rfl, rfl, rfl⟩
  have hnames : ∀ x y : String, True →
      Halt.Alike (.fault (.zeroStep x)) (.fault (.zeroStep y)) := fun _ _ _ => .zeroStep
  rcases upToNames.visits hnames h.matches (fun _ _ => trivial) hstart more with hsame | hstopped
  · obtain ⟨hsame, hbound, hbound', hhalt⟩ := hsame
    exact ⟨hsame.eq (hbound'.trans hbound.symm), hhalt⟩
  · obtain ⟨_, _, hahead⟩ := hstopped
    exact hahead.elim

theorem Halt.Alike.outOfRounds_iff {h h' : Option Halt} (halike : Option.Rel Halt.Alike h h') :
    h = some .outOfRounds ↔ h' = some .outOfRounds := by
  cases halike with
  | none => rfl
  | some hsame =>
    cases hsame with
    | same => rfl
    | zeroStep => simp

/-- The variable of a loop may have another name that its body does not use. From an empty store
the run of the changed template ends whenever that of the other one does, with the same output,
context and count of iterations, and in the same way, but for the loop named by a zero step. -/
theorem renamed_loop_invisible (sink : σ) (context : Context) {t t' : Template}
    (h : Template.RenamesLoop t t') :
    (∀ v, t.EndsAs (Machine.start sink context) v → ∃ halt,
      t'.EndsAs (Machine.start sink context) ⟨halt, v.machine⟩ ∧
        Option.Rel Halt.Alike v.halt halt) ∧
    (∀ v, t'.EndsAs (Machine.start sink context) v → ∃ halt,
      t.EndsAs (Machine.start sink context) ⟨halt, v.machine⟩ ∧
        Option.Rel Halt.Alike halt v.halt) := by
  constructor
  · intro v hv
    obtain ⟨hends, more, rfl⟩ := Template.endsAs_iff.1 hv
    obtain ⟨hmachine, hhalt⟩ := visits_renamed sink context h more
    refine ⟨_, Template.endsAs_iff.2 ⟨?_, more, ?_⟩, hhalt⟩
    · exact fun hout => hends ((Halt.Alike.outOfRounds_iff hhalt).2 hout)
    · rw [← hmachine]
  · intro v hv
    obtain ⟨hends, more, rfl⟩ := Template.endsAs_iff.1 hv
    obtain ⟨hmachine, hhalt⟩ := visits_renamed sink context h more
    refine ⟨_, Template.endsAs_iff.2 ⟨?_, more, ?_⟩, hhalt⟩
    · exact fun hout => hends ((Halt.Alike.outOfRounds_iff hhalt).1 hout)
    · rw [hmachine]

/-- A loop over `i` around another one, whose start is the outer variable. -/
def shadowing (outer : String) : Template :=
  [.loop ⟨outer, .integer 1, .integer 2, none⟩
    [.loop ⟨"i", .var outer, .integer 2, some (.var outer)⟩ [.echo [.var "i"]],
      .echo [.var outer]]]

theorem renamed_loop_invisible_shadowing :
    Template.RenamesLoop (shadowing "i") (shadowing "k") ∧
    (∀ v, (shadowing "i").EndsAs (Machine.start Sink.unbounded .default) v → ∃ halt,
      (shadowing "k").EndsAs (Machine.start Sink.unbounded .default) ⟨halt, v.machine⟩ ∧
        Option.Rel Halt.Alike v.halt halt) ∧
    (∀ v, (shadowing "k").EndsAs (Machine.start Sink.unbounded .default) v → ∃ halt,
      (shadowing "i").EndsAs (Machine.start Sink.unbounded .default) ⟨halt, v.machine⟩ ∧
        Option.Rel Halt.Alike halt v.halt) := by
  have hrenames : Template.RenamesLoop (shadowing "i") (shadowing "k") := .here (by decide)
  exact ⟨hrenames, renamed_loop_invisible Sink.unbounded .default hrenames⟩

end TagTemplate
