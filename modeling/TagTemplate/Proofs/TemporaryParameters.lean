import TagTemplate.Proofs.Comparison
import TagTemplate.Proofs.RoundTrip
import TagTemplate.Render

/-! Temporary parameters from one render to the next. They stay in the context as they are left, so
a later render over it sees what an earlier one has stored or removed. It sees it by asking for it
only, and just where some name has got another value. -/

namespace TagTemplate

/-! ## Contexts apart from their temporary parameters -/

/-- Contexts that differ in their temporary parameters at most, and there only as far as `P` has
it. -/
structure Context.Apart (P : Parameters → Parameters → Prop) (c d : Context) : Prop where
  parameters : d.parameters = c.parameters
  persistent : d.persistent = c.persistent
  mimeType : d.mimeType = c.mimeType
  maxLoopIterations : d.maxLoopIterations = c.maxLoopIterations
  temporary : P c.temporary d.temporary

theorem Context.hidden_apart {calls : Builtin → Prop} {P : Parameters → Parameters → Prop}
    (hget : calls .tparamGet → ∀ p q, P p q → ∀ name : String, q[name]? = p[name]?)
    (hset : calls .tparamSet → ∀ p q, P p q → ∀ name s, P (p.insert name s) (q.insert name s))
    (hdel : calls .tparamDel → ∀ p q, P p q → ∀ name, P (p.erase name) (q.erase name)) :
    Context.Hidden calls (Context.Apart P) where
  parameters _ h _ := by rw [h.parameters]
  persistent _ h _ := by rw [h.persistent]
  temporary hf h := hget hf _ _ h.temporary
  setMimeType _ h _ := ⟨h.parameters, h.persistent, rfl, h.maxLoopIterations, h.temporary⟩
  setPersistent _ h name s := ⟨h.parameters, congrArg (·.insert name s) h.persistent, h.mimeType,
    h.maxLoopIterations, h.temporary⟩
  setTemporary hf h name s := ⟨h.parameters, h.persistent, h.mimeType, h.maxLoopIterations,
    hset hf _ _ h.temporary name s⟩
  removePersistent _ h name := ⟨h.parameters, congrArg (·.erase name) h.persistent, h.mimeType,
    h.maxLoopIterations, h.temporary⟩
  removeTemporary hf h name := ⟨h.parameters, h.persistent, h.mimeType, h.maxLoopIterations,
    hdel hf _ _ h.temporary name⟩

/-! ## Renders over them -/

/-- What a render gives for a visit that went so. -/
def Visit.result (v : Visit Sink) : Except RenderError String :=
  match v.halt with
  | none => .ok v.machine.sink.written
  | some h => .error (.halt h)

theorem renderWith_of_parse {source : String} {t : Template} (h : Template.parse source = .ok t)
    (c : Context) : renderWith source c =
      ((t.visit ampleRounds (Machine.start Sink.unbounded c)).result,
        (t.visit ampleRounds (Machine.start Sink.unbounded c)).machine.context) := by
  unfold renderWith Template.visit
  rw [h]
  dsimp only
  cases Template.run ampleRounds t (Machine.start Sink.unbounded c) <;> rfl

/-- Where no function that is called tells two contexts apart, the results are the same. -/
theorem renderWith_apart {calls : Builtin → Prop} {P : Parameters → Parameters → Prop}
    (hidden : Context.Hidden calls (Context.Apart P)) {c d : Context} (h : c.Apart P d)
    {source : String} {t : Template} (ht : Template.parse source = .ok t)
    (hcalls : ∀ f ∈ Template.builtins t, calls f) :
    (renderWith source d).1 = (renderWith source c).1 ∧
      (renderWith source c).2.Apart P (renderWith source d).2 := by
  let C : Comparison Sink Sink := .upTo hidden (fun h => h.maxLoopIterations) fun _ => Eq.refl _
  have hstart : C.same (Machine.start Sink.unbounded c) (Machine.start Sink.unbounded d) :=
    ⟨rfl, h, rfl⟩
  rw [renderWith_of_parse ht, renderWith_of_parse ht]
  rcases C.visits_self hstart rfl hcalls ampleRounds with
    ⟨hsame, -, -, hhalt⟩ | ⟨_, _, hahead⟩
  · refine ⟨?_, hsame.context⟩
    unfold Visit.result
    rw [hsame.sink, eq_of_rel_eq hhalt]
  · exact hahead.elim

/-- A source that does not parse is not rendered over any context. -/
theorem renderWith_of_error {source : String} {e : ParseError}
    (h : Template.parse source = .error e) (c : Context) :
    renderWith source c = (.error (.parse e), c) := by
  unfold renderWith
  rw [h]

/-! ## Asking for a parameter -/

/-- Writes a temporary parameter, or a default where there is none. -/
def askingFor (name default : String) : Template :=
  [.echo [.string name, .string default, .function "tparamGet"]]

theorem canonical_askingFor (name default : String) :
    Template.Canonical (askingFor name default) := by
  refine ⟨fun e he => ?_, fun htext => absurd htext Bool.false_ne_true, trivial⟩
  simp only [List.mem_cons, List.not_mem_nil, or_false] at he
  rcases he with rfl | rfl | rfl
  · trivial
  · trivial
  · decide

theorem evalAll_askingFor (b : Bindings) (name default : String) (c : Context) :
    Element.evalAll b [.string name, .string default, .function "tparamGet"] [] c =
      .ok [.text ((c.temporary[name]?).getD default)] c := by
  have hname : Builtin.ofName? "tparamGet" = some .tparamGet := by decide
  have hlast : (Element.function "tparamGet").eval b [.text default, .text name] c =
      .ok (Builtin.orDefault c.temporary[name]? (.text default) ++ []) c := by
    simp only [Element.eval, hname]
    rfl
  have hvalue : Builtin.orDefault c.temporary[name]? (.text default) ++ [] =
      [.text ((c.temporary[name]?).getD default)] := by
    unfold Builtin.orDefault
    cases c.temporary[name]? <;> rfl
  rw [← hvalue, ← hlast]
  rfl

theorem run_askingFor (more : Nat) (name default : String) (c : Context) :
    Template.run more (askingFor name default) (Machine.start Sink.unbounded c) =
      .ok () (Machine.start ⟨"" ++ (c.temporary[name]?).getD default, none⟩ c) := by
  have hwrite : Exec.write ((c.temporary[name]?).getD default) (Machine.start Sink.unbounded c) =
      .ok () (Machine.start ⟨"" ++ (c.temporary[name]?).getD default, none⟩ c) :=
    Exec.write_of_true rfl
  have hecho : Exec.echo [.string name, .string default, .function "tparamGet"]
      (Machine.start Sink.unbounded c) =
      .ok () (Machine.start ⟨"" ++ (c.temporary[name]?).getD default, none⟩ c) :=
    (Exec.echo_of_ok (evalAll_askingFor _ name default c)).trans (bind_of_ok hwrite)
  exact bind_of_ok hecho

theorem renderWith_askingFor (name default : String) (c : Context) :
    renderWith (Template.toSource (askingFor name default)) c =
      (.ok ((c.temporary[name]?).getD default), c) := by
  have hparse := Template.Canonical.parse_toSource (canonical_askingFor name default)
  rw [renderWith_of_parse hparse, Template.visit, run_askingFor, String.empty_append]
  rfl

/-! ## What a later render sees -/

theorem exists_default_ne {x y : Option String} (h : x ≠ y) :
    ∃ default, x.getD default ≠ y.getD default := by
  have hlonger (s : String) : s ++ "x" ≠ s := by
    intro heq
    have hlength := congrArg String.length heq
    rw [String.length_append] at hlength
    exact Nat.succ_ne_self _ hlength
  cases x with
  | none =>
    cases y with
    | none => exact absurd rfl h
    | some s => exact ⟨s ++ "x", hlonger s⟩
  | some s =>
    cases y with
    | none => exact ⟨s ++ "x", (hlonger s).symm⟩
    | some u => exact ⟨"", fun heq => h (congrArg some heq)⟩

/-- Templates that do not ask for temporary parameters do not depend on them. -/
theorem renderWith_unasked {c d : Context} (h : c.Apart (fun _ _ => True) d) {source : String}
    {t : Template} (ht : Template.parse source = .ok t)
    (hunasked : .tparamGet ∉ Template.builtins t) :
    (renderWith source d).1 = (renderWith source c).1 := by
  have hidden : Context.Hidden (· ≠ .tparamGet) (Context.Apart fun _ _ => True) :=
    Context.hidden_apart (fun hget => absurd rfl hget) (fun _ _ _ _ _ _ => trivial)
      fun _ _ _ _ _ => trivial
  exact (renderWith_apart hidden h ht fun f hf heq => hunasked (heq ▸ hf)).1

/-- Two contexts give the same results for all templates just when they give the same answers. -/
theorem renderWith_eq_iff {c d : Context} (h : c.Apart (fun _ _ => True) d) :
    (∀ source, (renderWith source d).1 = (renderWith source c).1) ↔
      ∀ name : String, d.temporary[name]? = c.temporary[name]? := by
  constructor
  · intro hsame name
    by_contra hne
    obtain ⟨default, hdefault⟩ := exists_default_ne hne
    have hresult := hsame (Template.toSource (askingFor name default))
    rw [renderWith_askingFor, renderWith_askingFor] at hresult
    exact hdefault (Except.ok.inj hresult)
  · intro hlookup source
    have hidden : Context.Hidden (fun _ => True)
        (Context.Apart fun p q => ∀ name : String, q[name]? = p[name]?) := by
      refine Context.hidden_apart (fun _ _ _ hpq => hpq) ?_ ?_
      · intro _ p q hpq name s key
        rw [Std.TreeMap.getElem?_insert, Std.TreeMap.getElem?_insert, hpq]
      · intro _ p q hpq name key
        rw [Std.TreeMap.getElem?_erase, Std.TreeMap.getElem?_erase, hpq]
    cases ht : Template.parse source with
    | error e => rw [renderWith_of_error ht, renderWith_of_error ht]
    | ok t =>
      have hapart : c.Apart (fun p q => ∀ name : String, q[name]? = p[name]?) d :=
        ⟨h.parameters, h.persistent, h.mimeType, h.maxLoopIterations, hlookup⟩
      exact (renderWith_apart hidden hapart ht fun _ _ => trivial).1

/-- Templates that neither set nor remove temporary parameters leave them as they are. -/
theorem temporary_renderWith {c : Context} {source : String} {t : Template}
    (ht : Template.parse source = .ok t) (hset : .tparamSet ∉ Template.builtins t)
    (hdel : .tparamDel ∉ Template.builtins t) :
    (renderWith source c).2.temporary = c.temporary := by
  -- the run beside itself: both contexts keep the parameters from before
  have hidden : Context.Hidden (fun f => f ≠ .tparamSet ∧ f ≠ .tparamDel)
      (Context.Apart fun p q => p = c.temporary ∧ q = c.temporary) :=
    Context.hidden_apart (fun _ _ _ hpq _ => by rw [hpq.1, hpq.2]) (fun hf => absurd rfl hf.1)
      fun hf => absurd rfl hf.2
  have hself : c.Apart (fun p q => p = c.temporary ∧ q = c.temporary) c :=
    ⟨rfl, rfl, rfl, rfl, rfl, rfl⟩
  refine (renderWith_apart hidden hself ht fun f hf => ⟨?_, ?_⟩).2.temporary.1
  · exact fun heq => hset (heq ▸ hf)
  · exact fun heq => hdel (heq ▸ hf)

/-- The context after a render, and the same with the temporary parameters from before. A later
render tells them apart, for some template, exactly if some name has got another value; with a
template that asks for no temporary parameter it never does, and after one that neither sets nor
removes any there is nothing to tell. -/
theorem temporary_parameters_stay (first : String) (c : Context) :
    let after := (renderWith first c).2
    let restored := { after with temporary := c.temporary }
    ((∀ second, (renderWith second after).1 = (renderWith second restored).1) ↔
      ∀ name : String, after.temporary[name]? = c.temporary[name]?) ∧
    (∀ second t, Template.parse second = .ok t → .tparamGet ∉ Template.builtins t →
      (renderWith second after).1 = (renderWith second restored).1) ∧
    (∀ t, Template.parse first = .ok t → .tparamSet ∉ Template.builtins t →
      .tparamDel ∉ Template.builtins t → after.temporary = c.temporary) := by
  intro after restored
  have hapart : restored.Apart (fun _ _ => True) after := ⟨rfl, rfl, rfl, rfl, trivial⟩
  refine ⟨renderWith_eq_iff hapart, ?_, ?_⟩
  · exact fun second t ht hunasked => renderWith_unasked hapart ht hunasked
  · exact fun t ht hset hdel => temporary_renderWith ht hset hdel

/-- What one template stores, the next one gets. -/
theorem temporary_parameter_seen :
    let after := (renderWith "\x7b$= \"v\" \"k\" @tparamSet $\x7d" .default).2
    let restored := { after with temporary := Context.default.temporary }
    (renderWith "\x7b$= \"k\" \"none\" @tparamGet $\x7d" after).1 = .ok "v" ∧
    (renderWith "\x7b$= \"k\" \"none\" @tparamGet $\x7d" restored).1 = .ok "none" := by
  constructor <;> decide +kernel

end TagTemplate
