import TagTemplate.Proofs.History
import TagTemplate.Render

/-! Which runs fail because a variable is not bound. The loops around an element decide it: what is
bound when the element is evaluated are their variables and no others, however many rounds were
made and whatever other loops have bound and removed the same names before. -/

namespace TagTemplate

/-! ## Scopes -/

def Element.scopedIn (scope : List String) : Element → Bool
  | .var name => scope.contains name
  | _ => true

def LoopHead.scopedIn (scope : List String) (head : LoopHead) : Bool :=
  head.start.scopedIn scope && head.stop.scopedIn scope && head.step.all (·.scopedIn scope)

mutual

def Node.scopedIn (scope : List String) : Node → Bool
  | .text _ => true
  | .echo elements => elements.all (·.scopedIn scope)
  | .loop head body => head.scopedIn scope && Template.scopedIn (head.name :: scope) body

/-- Every variable is one of the scope, or of a loop whose body it is in; the bounds of a loop are
not in its body. -/
def Template.scopedIn (scope : List String) : List Node → Bool
  | [] => true
  | n :: ns => n.scopedIn scope && Template.scopedIn scope ns

end

/-! ## The variables that a run evaluates -/

/-- The evaluation of an echo tag gets as far as a variable. -/
inductive Element.Reads (b : Bindings) (name : String) :
    List Element → List Value → Context → Prop
  | here {es : List Element} {stack : List Value} {c : Context} :
      Reads b name (.var name :: es) stack c
  | later {e : Element} {es : List Element} {stack stack' : List Value} {c c' : Context} :
      e.eval b stack c = .ok stack' c' → Reads b name es stack' c' → Reads b name (e :: es) stack c

/-- The evaluation of the bounds gets as far as a variable. -/
inductive LoopHead.Reads (b : Bindings) (head : LoopHead) (name : String) : Prop
  | start : head.start = .var name → Reads b head name
  | stop {x : Number} : head.start.bound b = .ok x → head.stop = .var name → Reads b head name
  | step {x y : Number} : head.start.bound b = .ok x → head.stop.bound b = .ok y →
      head.step = some (.var name) → Reads b head name

variable {σ : Type}

/-- The rounds of a loop get from one machine to another on which they start the body, now or
after further rounds. -/
inductive Exec.Enters (name : String) (r : Exec.Bounds) (body : Exec σ Unit) :
    Nat → MachineOn σ → MachineOn σ → Prop
  | now {more : Nat} {m m₁ : MachineOn σ} {v : Value} :
      Exec.nextRound name r m = .ok (some v) m₁ → Enters name r body (more + 1) m m₁
  | later {more : Nat} {m m₁ m₂ m₃ m' : MachineOn σ} {v : Value} :
      Exec.nextRound name r m = .ok (some v) m₁ → body m₁ = .ok () m₂ →
      Exec.advance name r m₂ = .ok true m₃ → Enters name r body more m₃ m' →
      Enters name r body (more + 1) m m'

/-- The run of the nodes evaluates a variable that stands inside the bodies of loops over the
enclosing names, the outermost first. -/
inductive Template.Evaluates [Writer σ] (limit : Nat) (name : String) :
    List Node → MachineOn σ → List String → Prop
  | echo {elements : List Element} {ns : List Node} {m : MachineOn σ} :
      Element.Reads m.bindings name elements [] m.context →
      Evaluates limit name (.echo elements :: ns) m []
  | bound {head : LoopHead} {body ns : List Node} {m : MachineOn σ} :
      head.Reads m.bindings name → Evaluates limit name (.loop head body :: ns) m []
  | inside {head : LoopHead} {body ns : List Node} {m m₁ : MachineOn σ} {r : Exec.Bounds}
      {enclosing : List String} : Exec.bounds m.bindings head = .ok r →
      Exec.Enters head.name r (Template.run limit body) limit
        { m with bindings := m.bindings.bind head.name (.number r.start) } m₁ →
      Evaluates limit name body m₁ enclosing →
      Evaluates limit name (.loop head body :: ns) m (head.name :: enclosing)
  | later {n : Node} {ns : List Node} {m m₁ : MachineOn σ} {enclosing : List String} :
      n.run limit m = .ok () m₁ → Evaluates limit name ns m₁ enclosing →
      Evaluates limit name (n :: ns) m enclosing

/-! ## What is in scope -/

theorem Element.mem_of_scopedIn {scope : List String} {name : String}
    (h : (Element.var name).scopedIn scope = true) : name ∈ scope :=
  List.contains_iff_mem.1 h

theorem Element.Reads.mem_scope {b : Bindings} {name : String} {es : List Element}
    {stack : List Value} {c : Context} (h : Element.Reads b name es stack c) {scope : List String}
    (hscope : es.all (·.scopedIn scope) = true) : name ∈ scope := by
  induction h with
  | here => exact Element.mem_of_scopedIn (List.all_eq_true.1 hscope _ List.mem_cons_self)
  | later _ _ ih =>
    rw [List.all_cons, Bool.and_eq_true] at hscope
    exact ih hscope.2

theorem LoopHead.Reads.mem_scope {b : Bindings} {name : String} {head : LoopHead}
    (h : head.Reads b name) {scope : List String} (hscope : head.scopedIn scope = true) :
    name ∈ scope := by
  simp only [LoopHead.scopedIn, Bool.and_eq_true] at hscope
  obtain ⟨⟨hstart, hstop⟩, hstep⟩ := hscope
  cases h with
  | start hvar => rw [hvar] at hstart; exact Element.mem_of_scopedIn hstart
  | stop _ hvar => rw [hvar] at hstop; exact Element.mem_of_scopedIn hstop
  | step _ _ hvar => rw [hvar] at hstep; exact Element.mem_of_scopedIn hstep

/-! ## Elements that fail -/

theorem Bindings.lookup_unbound {b : Bindings} {key name : String} :
    b.lookup key = .error (.unboundVariable name) ↔ key = name ∧ b.find? name = none := by
  unfold lookup
  cases hkey : b.find? key with
  | none =>
    simp only [Except.error.injEq, Fault.unboundVariable.injEq]
    constructor
    · intro h
      exact ⟨h, h ▸ hkey⟩
    · exact And.left
  | some v =>
    simp only [reduceCtorEq, false_iff, not_and]
    intro h
    rw [← h, hkey]
    exact nofun

/-- Work that fails only because of the values never misses a variable. -/
theorem FromValues.ne_unbound {α : Type} {x : Except Fault α} {name : String} (h : FromValues x) :
    x ≠ .error (.unboundVariable name) := fun hx => nomatch h _ hx

theorem bind_eq_error_iff {ε α β : Type} {x : Except ε α} {f : α → Except ε β} {e : ε} :
    (x >>= f) = .error e ↔ x = .error e ∨ ∃ a, x = .ok a ∧ f a = .error e := by
  cases x with
  | ok a => simp [bind, Except.bind]
  | error e => simp [bind, Except.bind]

namespace Element

variable {b : Bindings} {name : String}

theorem failsWith_ofExcept {α : Type} {x : Except Fault α} {c : Context} {e : Fault} :
    FailsWith e (MonadExcept.ofExcept x : Builtin.Action α) c ↔ x = .error e := by
  cases x with
  | ok a => simp [MonadExcept.ofExcept]
  | error e => simp [MonadExcept.ofExcept]

theorem eval_unbound {e : Element} {stack : List Value} {c : Context} :
    FailsWith (.unboundVariable name) (e.eval b stack) c ↔
      e = .var name ∧ b.find? name = none := by
  by_cases hvar : ∃ key, e = .var key
  · obtain ⟨key, rfl⟩ := hvar
    simp only [eval, FailsWith.bind_iff, failsWith_ofExcept, FailsWith.pure_iff, and_false,
      exists_false, or_false, var.injEq]
    exact Bindings.lookup_unbound
  · have hvalues := onValues_eval b stack fun key hkey => hvar ⟨key, hkey⟩
    constructor
    · intro h
      obtain ⟨c', -, he⟩ := (hvalues c).of_failsWith h
      cases he
    · intro h
      exact absurd ⟨name, h.1⟩ hvar

theorem evalAll_unbound {es : List Element} {stack : List Value} {c : Context} :
    FailsWith (.unboundVariable name) (evalAll b es stack) c ↔
      Reads b name es stack c ∧ b.find? name = none := by
  induction es generalizing stack c with
  | nil =>
    constructor
    · exact fun h => (FailsWith.pure_iff.1 h).elim
    · exact fun h => nomatch h.1
  | cons e es ih =>
    simp only [evalAll, List.foldlM_cons, FailsWith.bind_iff, eval_unbound]
    constructor
    · intro h
      rcases h with ⟨rfl, hnone⟩ | ⟨stack', c', heval, hfails⟩
      · exact ⟨.here, hnone⟩
      · obtain ⟨hreads, hnone⟩ := ih.1 hfails
        exact ⟨.later heval hreads, hnone⟩
    · intro h
      obtain ⟨hreads, hnone⟩ := h
      cases hreads with
      | here => exact .inl ⟨rfl, hnone⟩
      | later heval hreads => exact .inr ⟨_, _, heval, ih.2 ⟨hreads, hnone⟩⟩

theorem bound_unbound {e : Element} :
    e.bound b = .error (.unboundVariable name) ↔ e = .var name ∧ b.find? name = none := by
  by_cases hvar : ∃ key, e = .var key
  · obtain ⟨key, rfl⟩ := hvar
    have hnumber : ∀ v : Value, v.toNumber ≠ .error (.unboundVariable name) := fun v =>
      (Value.fromOperands_toNumber v).fromValues.ne_unbound
    refine bind_eq_error_iff.trans ?_
    simp only [hnumber, and_false, exists_false, or_false, var.injEq]
    exact Bindings.lookup_unbound
  · constructor
    · intro h
      exact absurd h (fromValues_bound b fun key hkey => hvar ⟨key, hkey⟩).ne_unbound
    · intro h
      exact absurd ⟨name, h.1⟩ hvar

end Element

/-! ## Loops that fail -/

namespace Exec

variable {name : String}

theorem stepOf_unbound {b : Bindings} {head : LoopHead} :
    stepOf b head = .error (.unboundVariable name) ↔
      head.step = some (.var name) ∧ b.find? name = none := by
  unfold stepOf
  cases head.step with
  | none => simp
  | some e => simp only [Element.bound_unbound, Option.some.injEq]

theorem bounds_unbound {b : Bindings} {head : LoopHead} :
    bounds b head = .error (.unboundVariable name) ↔
      head.Reads b name ∧ b.find? name = none := by
  unfold bounds
  constructor
  · intro h
    rcases bind_eq_error_iff.1 h with hstart | ⟨x, hstart, h⟩
    · obtain ⟨hvar, hnone⟩ := Element.bound_unbound.1 hstart
      exact ⟨.start hvar, hnone⟩
    rcases bind_eq_error_iff.1 h with hstop | ⟨y, hstop, h⟩
    · obtain ⟨hvar, hnone⟩ := Element.bound_unbound.1 hstop
      exact ⟨.stop hstart hvar, hnone⟩
    rcases bind_eq_error_iff.1 h with hstep | ⟨z, hstep, h⟩
    · obtain ⟨hvar, hnone⟩ := stepOf_unbound.1 hstep
      exact ⟨.step hstart hstop hvar, hnone⟩
    -- what is left looks at the direction, and reads no variable
    rcases bind_eq_error_iff.1 h with hcompare | ⟨order, hcompare, h⟩
    · obtain ⟨text, he⟩ := Value.raises_compare _ _ _ hcompare
      cases he
    · cases order <;> cases h
  · intro h
    obtain ⟨hreads, hnone⟩ := h
    cases hreads with
    | start hvar => exact bind_eq_error_iff.2 (.inl (Element.bound_unbound.2 ⟨hvar, hnone⟩))
    | stop hstart hvar =>
      refine bind_eq_error_iff.2 (.inr ⟨_, hstart, bind_eq_error_iff.2 (.inl ?_)⟩)
      exact Element.bound_unbound.2 ⟨hvar, hnone⟩
    | step hstart hstop hvar =>
      refine bind_eq_error_iff.2 (.inr ⟨_, hstart, bind_eq_error_iff.2 (.inr ⟨_, hstop, ?_⟩)⟩)
      exact bind_eq_error_iff.2 (.inl (stepOf_unbound.2 ⟨hvar, hnone⟩))

variable {x : String} {r : Bounds} {body : Exec σ Unit} {b : Bindings} {m m' : MachineOn σ}

theorem OnTop.find?_eq_none (h : OnTop b x m) :
    m.bindings.find? name = none ↔ name ≠ x ∧ b.find? name = none := by
  obtain ⟨v, hv⟩ := h
  rw [hv, Bindings.find?_bind]
  by_cases hname : x = name
  · simp [hname]
  · simp [hname, Ne.symm hname]

theorem OnTop.nextRound {v : Option Value} (htop : OnTop b x m)
    (h : Exec.nextRound x r m = .ok v m') : OnTop b x m' :=
  (Ends.of_ok h).1 (onTop_nextRound r htop)

theorem OnTop.run (htop : OnTop b x m) (hbody : Scoped body) (h : body m = .ok () m') :
    OnTop b x m' := by
  obtain ⟨v, hv⟩ := htop
  exact ⟨v, ((Ends.of_ok h).1 (hbody m)).trans hv⟩

theorem OnTop.advance {again : Bool} (htop : OnTop b x m)
    (h : Exec.advance x r m = .ok again m') : OnTop b x m' :=
  (Ends.of_ok h).1 (onTop_advance r htop)

/-- The body is started with its own variable on top of what was bound before. -/
theorem Enters.onTop {more : Nat} (h : Enters x r body more m m') (hbody : Scoped body)
    (htop : OnTop b x m) : OnTop b x m' := by
  induction h with
  | now hnext => exact htop.nextRound hnext
  | later hnext hrun hagain _ ih =>
    exact ih (((htop.nextRound hnext).run hbody hrun).advance hagain)

/-- A round that fails for a variable does so in the body, or after it in a later round. -/
theorem round_unbound {more : Nat} (hbody : Scoped body) (htop : OnTop b x m) :
    FailsWith (.fault (.unboundVariable name)) (rounds x r body (more + 1)) m ↔
      ∃ v m₁, nextRound x r m = .ok (some v) m₁ ∧
        (FailsWith (.fault (.unboundVariable name)) body m₁ ∨
          ∃ m₂ m₃, body m₁ = .ok () m₂ ∧ advance x r m₂ = .ok true m₃ ∧
            FailsWith (.fault (.unboundVariable name)) (rounds x r body more) m₃) := by
  constructor
  · intro h
    rcases FailsWith.bind_iff.1 h with h | ⟨next, m₁, hnext, h⟩
    · obtain ⟨v, hv⟩ := htop.find?
      obtain ⟨m', ⟨-, text, he⟩ | ⟨-, limit, -, -, he⟩⟩ := (ends_nextRound r hv).of_failsWith h
      · cases he
      · cases he
    cases next with
    | none => exact (FailsWith.pure_iff.1 h).elim
    | some v =>
      refine ⟨v, m₁, hnext, ?_⟩
      rcases FailsWith.bind_iff.1 h with h | ⟨u, m₂, hrun, h⟩
      · exact .inl h
      rcases FailsWith.bind_iff.1 h with h | ⟨again, m₃, hagain, h⟩
      · obtain ⟨v, hv⟩ := ((htop.nextRound hnext).run hbody hrun).find?
        obtain ⟨m', -, e, he, hfault⟩ := (ends_advance r hv).of_failsWith h
        cases hfault
        exact absurd he (Value.fromOperands_apply _ _ _).fromValues.ne_unbound
      cases again with
      | true => exact .inr ⟨m₂, m₃, hrun, hagain, h⟩
      | false => exact (FailsWith.pure_iff.1 h).elim
  · intro h
    obtain ⟨v, m₁, hnext, h | ⟨m₂, m₃, hrun, hagain, h⟩⟩ := h
    · exact .bind_right hnext (.bind_left h)
    · exact .bind_right hnext (.bind_right hrun (.bind_right hagain h))

theorem rounds_unbound (hbody : Scoped body) (more : Nat) (htop : OnTop b x m) :
    FailsWith (.fault (.unboundVariable name)) (rounds x r body more) m ↔
      ∃ m₁, Enters x r body more m m₁ ∧ FailsWith (.fault (.unboundVariable name)) body m₁ := by
  induction more generalizing m with
  | zero =>
    constructor
    · intro h
      cases FailsWith.throw_iff.1 h
    · intro h
      obtain ⟨m₁, ⟨⟩, -⟩ := h
  | succ more ih =>
    rw [round_unbound hbody htop]
    constructor
    · intro h
      obtain ⟨v, m₁, hnext, h | ⟨m₂, m₃, hrun, hagain, h⟩⟩ := h
      · exact ⟨m₁, .now hnext, h⟩
      · have htop₃ := ((htop.nextRound hnext).run hbody hrun).advance hagain
        obtain ⟨m₄, henters, hfails⟩ := (ih htop₃).1 h
        exact ⟨m₄, .later hnext hrun hagain henters, hfails⟩
    · intro h
      obtain ⟨m₁, henters, hfails⟩ := h
      cases henters with
      | now hnext => exact ⟨_, _, hnext, .inl hfails⟩
      | later hnext hrun hagain henters =>
        have htop₃ := ((htop.nextRound hnext).run hbody hrun).advance hagain
        exact ⟨_, _, hnext, .inr ⟨_, _, hrun, hagain, (ih htop₃).2 ⟨m₁, henters, hfails⟩⟩⟩

theorem failsWith_ofExcept_bind {α : Type} {result : Except Fault α} {next : α → Exec σ Unit}
    {e : Fault} : FailsWith (.fault e) (ofExcept result >>= next) m ↔
      result = .error e ∨ ∃ a, result = .ok a ∧ FailsWith (.fault e) (next a) m := by
  cases result with
  | ok a => simp [ofExcept]
  | error e' => simp [ofExcept]

theorem failsWith_withBinding {e : Halt} {v : Value} (h : StaysOnTop x body) :
    FailsWith e (withBinding x v body) m ↔
      FailsWith e body { m with bindings := m.bindings.bind x v } := by
  unfold FailsWith
  rw [withBinding_eq h]
  cases body { m with bindings := m.bindings.bind x v } with
  | ok u m' => simp [mapState]
  | error e m' => simp [mapState]

/-- A loop that fails for a variable does so in its bounds, or in a body that it has started. -/
theorem loop_unbound {limit : Nat} {head : LoopHead} (hbody : Scoped body) :
    FailsWith (.fault (.unboundVariable name)) (loop limit head body) m ↔
      (head.Reads m.bindings name ∧ m.bindings.find? name = none) ∨
        ∃ r, bounds m.bindings head = .ok r ∧ ∃ m₁, Enters head.name r body limit
          { m with bindings := m.bindings.bind head.name (.number r.start) } m₁ ∧
          FailsWith (.fault (.unboundVariable name)) body m₁ := by
  refine failsWith_ofExcept_bind.trans (or_congr bounds_unbound ?_)
  refine exists_congr fun r => and_congr_right fun _ => ?_
  rw [failsWith_withBinding (staysOnTop_rounds r hbody limit)]
  exact rounds_unbound hbody limit ⟨.number r.start, rfl⟩

/-- Only the sink can make it fail to write. -/
theorem not_failsWith_output {act : Exec σ Unit} {e : Fault} (he : e ≠ .outputFull)
    (h : Keeps MachineOn.besideSink (· = .fault .outputFull) act) : ¬FailsWith (.fault e) act m := by
  intro hfails
  obtain ⟨m', -, hfault⟩ := (h m).of_failsWith hfails
  cases hfault
  exact he rfl

theorem failsWith_onContext {α : Type} {act : Builtin.Action α} {e : Fault} :
    FailsWith (.fault e) (onContext act) m ↔ FailsWith e act m.context := by
  unfold FailsWith onContext
  cases act m.context with
  | ok a c => simp
  | error e' c => simp

end Exec

/-! ## Templates -/

variable [Writer σ] {limit : Nat} {name : String}

/-- An echo tag fails where its evaluation does, and else only in the sink. -/
theorem Exec.failsWith_echo {elements : List Element} {m : MachineOn σ} {e : Fault}
    (he : e ≠ .outputFull) : FailsWith (.fault e) (Exec.echo elements) m ↔
      FailsWith e (Element.evalAll m.bindings elements []) m.context := by
  rw [← Exec.failsWith_onContext]
  constructor
  · intro h
    rcases FailsWith.bind_iff.1 (FailsWith.get_bind.1 h) with h | ⟨stack, m', -, h⟩
    · exact h
    · exact absurd h (Exec.not_failsWith_output he (Keeps.forM Exec.output_writeValue _))
  · intro h
    exact FailsWith.get_bind.2 (.bind_left h)

/-- An echo tag fails for a variable when it evaluates it; what it writes reads no variables. -/
theorem Exec.echo_unbound {elements : List Element} {m : MachineOn σ} :
    FailsWith (.fault (.unboundVariable name)) (Exec.echo elements) m ↔
      Element.Reads m.bindings name elements [] m.context ∧ m.bindings.find? name = none := by
  have hne : Fault.unboundVariable name ≠ .outputFull := fun h => nomatch h
  rw [Exec.failsWith_echo hne, Element.evalAll_unbound]

/-- A variable that is evaluated, and is not the one of a loop around it, fails if it was not bound
before. -/
theorem Template.Evaluates.fails {ns : List Node} {m : MachineOn σ} {enclosing : List String}
    (h : Template.Evaluates limit name ns m enclosing) (hfree : name ∉ enclosing)
    (hnone : m.bindings.find? name = none) :
    FailsWith (.fault (.unboundVariable name)) (Template.run limit ns) m := by
  induction h with
  | echo hreads => exact .bind_left (Exec.echo_unbound.2 ⟨hreads, hnone⟩)
  | bound hreads =>
    refine .bind_left ((Exec.loop_unbound ?_).2 (.inl ⟨hreads, hnone⟩))
    exact (Exec.compatible_scoped limit).template _
  | @inside head body ns m m₁ r enclosing hbounds henters _ ih =>
    simp only [List.mem_cons, not_or] at hfree
    have hscoped := (Exec.compatible_scoped limit).template (σ := σ) body
    have hnone₁ := (henters.onTop hscoped ⟨_, rfl⟩).find?_eq_none.2 ⟨hfree.1, hnone⟩
    refine .bind_left ((Exec.loop_unbound hscoped).2 (.inr ⟨r, hbounds, m₁, henters, ?_⟩))
    exact ih hfree.2 hnone₁
  | @later n ns m m₁ enclosing hrun _ ih =>
    have hkept := (Ends.of_ok hrun).1 ((Exec.compatible_scoped limit).node n m)
    exact .bind_right hrun (ih hfree (hkept ▸ hnone))

mutual

theorem Node.evaluates_of_failsWith : ∀ (n : Node) (ns : List Node) {m : MachineOn σ},
    FailsWith (.fault (.unboundVariable name)) (n.run limit) m →
      ∃ enclosing, Template.Evaluates limit name (n :: ns) m enclosing ∧ name ∉ enclosing ∧
        m.bindings.find? name = none
  | .text s, _, _, h => absurd h (Exec.not_failsWith_output (fun h => nomatch h) (Exec.output_write s))
  | .echo elements, ns, m, h => by
    obtain ⟨hreads, hnone⟩ := Exec.echo_unbound.1 h
    exact ⟨[], .echo hreads, List.not_mem_nil, hnone⟩
  | .loop head body, ns, m, h => by
    have hscoped := (Exec.compatible_scoped limit).template (σ := σ) body
    rcases (Exec.loop_unbound hscoped).1 h with ⟨hreads, hnone⟩ | ⟨r, hbounds, m₁, henters, h⟩
    · exact ⟨[], .bound hreads, List.not_mem_nil, hnone⟩
    · obtain ⟨enclosing, hevaluates, hfree, hnone⟩ := Template.evaluates_of_failsWith body h
      obtain ⟨hne, hnone⟩ := (henters.onTop hscoped ⟨_, rfl⟩).find?_eq_none.1 hnone
      refine ⟨head.name :: enclosing, .inside hbounds henters hevaluates, ?_, hnone⟩
      simp [hne, hfree]

theorem Template.evaluates_of_failsWith : ∀ (ns : List Node) {m : MachineOn σ},
    FailsWith (.fault (.unboundVariable name)) (Template.run limit ns) m →
      ∃ enclosing, Template.Evaluates limit name ns m enclosing ∧ name ∉ enclosing ∧
        m.bindings.find? name = none
  | [], _, h => (FailsWith.pure_iff.1 h).elim
  | n :: ns, m, h => by
    rcases FailsWith.bind_iff.1 h with h | ⟨u, m₁, hrun, h⟩
    · exact Node.evaluates_of_failsWith n ns h
    · obtain ⟨enclosing, hevaluates, hfree, hnone⟩ := Template.evaluates_of_failsWith ns h
      have hkept := (Ends.of_ok hrun).1 ((Exec.compatible_scoped limit).node n m)
      exact ⟨enclosing, .later hrun hevaluates, hfree, hkept ▸ hnone⟩

end

/-- Where everything is in scope, what is evaluated is in scope. -/
theorem Template.Evaluates.mem_scope {ns : List Node} {m : MachineOn σ} {enclosing : List String}
    (h : Template.Evaluates limit name ns m enclosing) {scope : List String}
    (hscope : Template.scopedIn scope ns = true) : name ∈ enclosing ∨ name ∈ scope := by
  induction h generalizing scope with
  | echo hreads =>
    simp only [Template.scopedIn, Node.scopedIn, Bool.and_eq_true] at hscope
    exact .inr (hreads.mem_scope hscope.1)
  | bound hreads =>
    simp only [Template.scopedIn, Node.scopedIn, Bool.and_eq_true] at hscope
    exact .inr (hreads.mem_scope hscope.1.1)
  | inside _ _ _ ih =>
    simp only [Template.scopedIn, Node.scopedIn, Bool.and_eq_true] at hscope
    rcases ih hscope.1.2 with hmem | hmem
    · exact .inl (List.mem_cons_of_mem _ hmem)
    · rcases List.mem_cons.1 hmem with rfl | hmem
      · exact .inl List.mem_cons_self
      · exact .inr hmem
  | later _ _ ih =>
    simp only [Template.scopedIn, Bool.and_eq_true] at hscope
    exact ih hscope.2

theorem Template.visit_halt {t : Template} {m : MachineOn σ} {h : Halt} :
    (t.visit limit m).halt = some h ↔ FailsWith h (Template.run limit t) m := by
  unfold visit FailsWith
  cases Template.run limit t m with
  | ok u m' => simp
  | error h' m' => simp

/-- From any machine: what is bound in it before the run counts as well. -/
theorem Template.visit_unbound_iff {t : Template} {m : MachineOn σ} :
    (t.visit limit m).halt = some (.fault (.unboundVariable name)) ↔
      ∃ enclosing, Template.Evaluates limit name t m enclosing ∧ name ∉ enclosing ∧
        m.bindings.find? name = none := by
  rw [Template.visit_halt]
  constructor
  · exact Template.evaluates_of_failsWith t
  · intro h
    obtain ⟨enclosing, hevaluates, hfree, hnone⟩ := h
    exact hevaluates.fails hfree hnone

/-- A run that starts with nothing bound fails for a variable exactly if it evaluates that variable
outside the bodies of all loops over it. So it never does where every variable is in the body of a
loop over it. -/
theorem unbound_iff_evaluated_outside (limit : Nat) (sink : σ) (context : Context) (t : Template) :
    (∀ name, (t.visit limit (Machine.start sink context)).halt =
        some (.fault (.unboundVariable name)) ↔
      ∃ enclosing, Template.Evaluates limit name t (Machine.start sink context) enclosing ∧
        name ∉ enclosing) ∧
    (Template.scopedIn [] t = true → ∀ name,
      (t.visit limit (Machine.start sink context)).halt ≠
        some (.fault (.unboundVariable name))) := by
  have hstart (name : String) : (Machine.start sink context).bindings.find? name = none :=
    Bindings.find?_empty
  constructor
  · intro name
    simp only [Template.visit_unbound_iff, hstart, and_true]
  · intro hscoped name h
    obtain ⟨enclosing, hevaluates, hfree, -⟩ := Template.visit_unbound_iff.1 h
    rcases hevaluates.mem_scope hscoped with hmem | hmem
    · exact hfree hmem
    · cases hmem

-- the start of a loop lies outside of it, though it may be the variable of one further out
example : Template.scopedIn [] [.loop ⟨"i", .var "i", .integer 2, none⟩ []] = false ∧
    Template.scopedIn [] [.loop ⟨"i", .integer 1, .integer 2, none⟩
      [.loop ⟨"i", .var "i", .integer 2, none⟩ [.echo [.var "i"]]]] = true := by decide

end TagTemplate
