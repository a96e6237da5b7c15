import Std.Data.TreeMap.Lemmas
import TagTemplate.Proofs.LoopRuns
import TagTemplate.Proofs.SideBySide

/-! What a run leaves in the context. Only calls of functions reach it, and of these only those that
set or remove something. So the context after a run is known from the calls that came to their end:
for every name the last one that set or removed it decides, and what none of them has touched is as
it was before, also where the run fails in between. -/

namespace TagTemplate

/-! ## Calls -/

/-- A call that has come to its end; the operands stand in the order of their evaluation. -/
structure Call where
  function : Builtin
  operands : List Value

/-- The parameters that templates can change. -/
inductive Store where
  | persistent
  | temporary
deriving DecidableEq

namespace Store

def setter : Store → Builtin
  | .persistent => .pparamSet
  | .temporary => .tparamSet

def remover : Store → Builtin
  | .persistent => .pparamDel
  | .temporary => .tparamDel

def parameters : Store → Context → Parameters
  | .persistent, c => c.persistent
  | .temporary, c => c.temporary

end Store

namespace Call

/-- What the call does to a name of the store, if it does anything: the name gets a text, or it is
removed. Names and values are what the operands are printed as. -/
def entry? (store : Store) (name : String) (call : Call) : Option (Option String) :=
  match call.operands with
  | [value, key] =>
    if call.function = store.setter ∧ key.display = name then some (some value.display) else none
  | [key] => if call.function = store.remover ∧ key.display = name then some none else none
  | _ => none

/-- The type of the output that the call sets, if it sets it. -/
def mimeType? (call : Call) : Option String :=
  match call.operands with
  | [mime] => if call.function = .setMimeType then some mime.display else none
  | _ => none

/-- What the last of the calls does that does anything. -/
def last? {α : Type} (effect? : Call → Option α) (calls : List Call) : Option α :=
  calls.reverse.findSome? effect?

end Call

/-- The calls have made one context out of another: each name has what the last call gave it that
set or removed it, and so has the type of the output. -/
structure Context.After (c : Context) (calls : List Call) (c' : Context) : Prop where
  parameters : c'.parameters = c.parameters
  maxLoopIterations : c'.maxLoopIterations = c.maxLoopIterations
  stored : ∀ (store : Store) (name : String), (store.parameters c')[name]? =
    (Call.last? (Call.entry? store name) calls).getD (store.parameters c)[name]?
  mimeType : c'.mimeType = (Call.last? Call.mimeType? calls).getD c.mimeType

/-- The call of a function on a stack whose top comes first. -/
def Builtin.on (f : Builtin) (stack : List Value) : Call := ⟨f, (stack.take f.needed).reverse⟩

/-- The call that an element makes, if it is one. -/
def Element.call? (stack : List Value) : Element → Option Call
  | .function name => (Builtin.ofName? name).map (·.on stack)
  | _ => none

/-- The calls that an evaluation brings to their end, in order. -/
def Element.calls (b : Bindings) : List Element → List Value → Context → List Call
  | [], _, _ => []
  | e :: es, stack, c =>
    match e.eval b stack c with
    | .ok stack' c' => (e.call? stack).toList ++ Element.calls b es stack' c'
    | .error _ _ => []

/-- The calls in all rounds of a loop, when those of one round are known. -/
def Exec.loopCalls {σ : Type} (limit : Nat) (head : LoopHead) (body : Exec σ Unit)
    (inside : MachineOn σ → List Call) (m : MachineOn σ) : List Call :=
  match Exec.bounds m.bindings head with
  | .ok r => (Exec.entries head.name r body limit
      { m with bindings := m.bindings.bind head.name (.number r.start) }).flatMap inside
  | .error _ => []

mutual

def Node.calls {σ : Type} [Writer σ] (limit : Nat) : Node → MachineOn σ → List Call
  | .text _ => fun _ => []
  | .echo elements => fun m => Element.calls m.bindings elements [] m.context
  | .loop head body =>
    Exec.loopCalls limit head (Template.run limit body) (Template.calls limit body)

/-- The calls that a run of the nodes brings to their end, in order. -/
def Template.calls {σ : Type} [Writer σ] (limit : Nat) : List Node → MachineOn σ → List Call
  | [] => fun _ => []
  | n :: ns => fun m => n.calls limit m ++
    match n.run limit m with
    | .ok () m' => Template.calls limit ns m'
    | .error _ _ => []

end

/-! ## One call after the other -/

namespace Call

variable {α : Type} {effect? : Call → Option α}

@[simp] theorem last?_nil : last? effect? [] = none := rfl

@[simp] theorem last?_singleton (call : Call) : last? effect? [call] = effect? call := by
  unfold last?
  rw [List.reverse_singleton, List.findSome?_singleton]

/-- Later calls go before earlier ones. -/
theorem last?_append (calls calls' : List Call) :
    last? effect? (calls ++ calls') = (last? effect? calls').or (last? effect? calls) := by
  unfold last?
  rw [List.reverse_append, List.findSome?_append]

theorem last?_eq_none {calls : List Call} :
    last? effect? calls = none ↔ ∀ call ∈ calls, effect? call = none := by
  simp only [last?, List.findSome?_eq_none_iff, List.mem_reverse]

end Call

namespace Context.After

variable {c c' c'' : Context} {calls calls' : List Call}

theorem refl (c : Context) : c.After [] c := ⟨rfl, rfl, fun _ _ => rfl, rfl⟩

theorem trans (h : c.After calls c') (h' : c'.After calls' c'') : c.After (calls ++ calls') c'' where
  parameters := h'.parameters.trans h.parameters
  maxLoopIterations := h'.maxLoopIterations.trans h.maxLoopIterations
  stored store name := by
    rw [h'.stored, h.stored, Call.last?_append, Option.getD_or]
  mimeType := by
    rw [h'.mimeType, h.mimeType, Call.last?_append, Option.getD_or]

end Context.After

namespace Store

theorem setter_inj {s t : Store} : s.setter = t.setter ↔ s = t := by
  cases s <;> cases t <;> decide

theorem remover_inj {s t : Store} : s.remover = t.remover ↔ s = t := by
  cases s <;> cases t <;> decide

/-- Gives a name of the store another entry. -/
def put (store : Store) (c : Context) (key : String) (entry : Option String) : Context :=
  match store, entry with
  | .persistent, some value => c.setPersistent key value
  | .persistent, none => c.removePersistent key
  | .temporary, some value => c.setTemporary key value
  | .temporary, none => c.removeTemporary key

/-- No other name is touched, and no name of the other store. -/
theorem getElem?_put (store store' : Store) (c : Context) (key name : String)
    (entry : Option String) : (store'.parameters (store.put c key entry))[name]? =
      if store = store' ∧ key = name then entry else (store'.parameters c)[name]? := by
  have hset (p : Parameters) (value : String) :
      (p.insert key value)[name]? = if key = name then some value else p[name]? := by
    simp only [Std.TreeMap.getElem?_insert, Std.compare_eq_iff_eq]
  have hremove (p : Parameters) : (p.erase key)[name]? = if key = name then none else p[name]? := by
    simp only [Std.TreeMap.getElem?_erase, Std.compare_eq_iff_eq]
  cases store <;> cases store' <;> cases entry <;>
    simp [put, parameters, Context.setPersistent, Context.removePersistent, Context.setTemporary,
      Context.removeTemporary, hset, hremove]

/-- Nothing else in the context changes. -/
theorem put_keeps (store : Store) (c : Context) (key : String) (entry : Option String) :
    (store.put c key entry).fixed = c.fixed ∧ (store.put c key entry).mimeType = c.mimeType := by
  cases store <;> cases entry <;> exact ⟨rfl, rfl⟩

end Store

/-! ## Functions -/

namespace Call

variable {f : Builtin} {operands : List Value} {store : Store}

theorem entry?_eq_none (hset : f ≠ store.setter) (hremove : f ≠ store.remover) (name : String) :
    entry? store name ⟨f, operands⟩ = none := by
  unfold entry?
  split
  · exact if_neg fun h => hset h.1
  · exact if_neg fun h => hremove h.1
  · rfl

theorem mimeType?_eq_none (hset : f ≠ .setMimeType) : mimeType? ⟨f, operands⟩ = none := by
  unfold mimeType?
  split
  · exact if_neg hset
  · rfl

end Call

namespace Builtin

open MonadExcept (ofExcept)

/-- The functions that set or remove something. -/
def changing : List Builtin := [.setMimeType, .pparamSet, .tparamSet, .pparamDel, .tparamDel]

theorem setter_mem_changing (store : Store) : store.setter ∈ changing := by
  cases store <;> decide

theorem remover_mem_changing (store : Store) : store.remover ∈ changing := by
  cases store <;> decide

/-- The work has made of the context what the call makes of it, or has failed and left it alone. -/
def Records (call : Call) (act : Action (List Value)) : Prop :=
  ∀ c, Ends act c (fun _ c' => c.After [call] c') fun _ c' => c' = c

variable {f : Builtin} {operands : List Value}

theorem records_quiet {act : Action (List Value)} (hquiet : f ∉ changing)
    (hkeeps : Keeps id (fun _ => True) act) : Records ⟨f, operands⟩ act := by
  intro c
  refine (hkeeps c).imp ?_ fun _ _ h => h.1
  rintro _ c' rfl
  refine ⟨rfl, rfl, fun store name => ?_, ?_⟩
  · rw [Call.last?_singleton, Call.entry?_eq_none]
    · rfl
    · rintro rfl
      exact hquiet (setter_mem_changing store)
    · rintro rfl
      exact hquiet (remover_mem_changing store)
  · rw [Call.last?_singleton, Call.mimeType?_eq_none]
    · rfl
    · rintro rfl
      exact hquiet List.mem_cons_self

theorem records_pure {results : List Value} (hquiet : f ∉ changing) :
    Records ⟨f, operands⟩ (pure results) :=
  records_quiet hquiet (Keeps.pure _)

theorem records_ofExcept {α : Type} {x : Except Fault α} {g : α → List Value}
    (hquiet : f ∉ changing) : Records ⟨f, operands⟩ (do return g (← ofExcept x)) :=
  records_quiet hquiet ((keeps_ofExcept fun _ _ => trivial).bind fun _ => Keeps.pure _)

theorem records_get {g : Context → List Value} (hquiet : f ∉ changing) :
    Records ⟨f, operands⟩ (do return g (← get)) :=
  records_quiet hquiet (Keeps.get.bind fun _ => Keeps.pure _)

theorem records_modify {call : Call} {g : Context → Context}
    (h : ∀ c : Context, c.After [call] (g c)) : Records call (do modify g; return []) := h

/-- A function that sets or removes a name of a store does just this. -/
theorem records_put {call : Call} (store : Store) {key : String} {entry : Option String}
    (hentry : ∀ store' name, call.entry? store' name =
      if store = store' ∧ key = name then some entry else none)
    (hmime : call.mimeType? = none) :
    Records call (do modify (store.put · key entry); return []) := by
  refine records_modify fun c => ?_
  obtain ⟨hfixed, hmimeType⟩ := store.put_keeps c key entry
  refine ⟨congrArg Prod.fst hfixed, congrArg Prod.snd hfixed, fun store' name => ?_, ?_⟩
  · rw [Store.getElem?_put, Call.last?_singleton, hentry]
    split <;> rfl
  · rw [hmimeType, Call.last?_singleton, hmime]
    rfl

theorem records_setter (store : Store) (value key : Value) :
    Records ⟨store.setter, [value, key]⟩
      (do modify (store.put · key.display (some value.display)); return []) := by
  refine records_put store (fun store' name => ?_) rfl
  simp only [Call.entry?, Store.setter_inj]

theorem records_remover (store : Store) (key : Value) :
    Records ⟨store.remover, [key]⟩ (do modify (store.put · key.display none); return []) := by
  refine records_put store (fun store' name => ?_) (Call.mimeType?_eq_none ?_)
  · simp only [Call.entry?, Store.remover_inj]
  · cases store <;> decide

theorem records_setMimeType (mime : Value) :
    Records ⟨.setMimeType, [mime]⟩ (do modify (·.setMimeType mime.display); return []) := by
  refine records_modify fun c => ⟨rfl, rfl, fun store name => ?_, rfl⟩
  rw [Call.last?_singleton, Call.entry?_eq_none]
  · cases store <;> rfl
  · cases store <;> decide
  · cases store <;> decide

/-- A behaviour that does what the call of the function makes of the context. -/
def Behaviour.Records (f : Builtin) : Behaviour → Prop
  | .unary act => ∀ x, Builtin.Records ⟨f, [x]⟩ (act x)
  | .binary act => ∀ x y, Builtin.Records ⟨f, [x, y]⟩ (act x y)

theorem records_behaviour (f : Builtin) : f.behaviour.Records f := by
  cases f with
  | sin => exact fun _ => records_ofExcept (by decide)
  | decfmt => exact fun _ _ => records_ofExcept (by decide)
  | dup => exact fun _ => records_pure (by decide)
  | swap => exact fun _ _ => records_pure (by decide)
  | setMimeType => exact records_setMimeType
  | paramGet => exact fun _ _ => records_get (by decide)
  | pparamGet => exact fun _ _ => records_get (by decide)
  | tparamGet => exact fun _ _ => records_get (by decide)
  | pparamSet => exact records_setter .persistent
  | tparamSet => exact records_setter .temporary
  | pparamDel => exact records_remover .persistent
  | tparamDel => exact records_remover .temporary

theorem records_call (f : Builtin) (stack : List Value) : Records (f.on stack) (f.call stack) := by
  have h := f.records_behaviour
  intro c
  unfold call on needed
  split
  · rename_i act x rest hact
    rw [hact] at h ⊢
    exact (h x c).bind fun _ _ hafter => hafter
  · rename_i act y x rest hact
    rw [hact] at h ⊢
    exact (h x y c).bind fun _ _ hafter => hafter
  · exact Ends.throw_iff.2 rfl

end Builtin

/-! ## Echo tags -/

namespace Element

theorem after_eval (b : Bindings) (e : Element) (stack : List Value) (c : Context) :
    Ends (e.eval b stack) c (fun _ c' => c.After (e.call? stack).toList c') fun _ c' => c' = c := by
  have hkept {act : Builtin.Action (List Value)} (h : Keeps id (fun _ => True) act) :
      Ends act c (fun _ c' => c.After [] c') fun _ c' => c' = c := by
    refine (h c).imp ?_ fun _ _ h => h.1
    rintro _ c' rfl
    exact .refl _
  cases e with
  | integer n => exact .refl c
  | double x => exact .refl c
  | string s => exact .refl c
  | var name => exact hkept ((Builtin.keeps_ofExcept fun _ _ => trivial).bind fun _ => Keeps.pure _)
  | operator symbol => exact hkept (Builtin.keeps_ofExcept fun _ _ => trivial)
  | function name =>
    simp only [eval, call?]
    cases Builtin.ofName? name with
    | some f => exact f.records_call stack c
    | none => rfl

/-- An element that fails adds nothing to what the elements before it have made of the context. -/
theorem after_evalAll (b : Bindings) (es : List Element) (stack : List Value) (c : Context) :
    c.After (Element.calls b es stack c) (finalState (evalAll b es stack c)) := by
  induction es generalizing stack c with
  | nil => exact .refl c
  | cons e es ih =>
    have heval := e.after_eval b stack c
    have hcons : evalAll b (e :: es) stack c = (e.eval b stack >>= evalAll b es) c := by
      rw [evalAll, List.foldlM_cons]
      rfl
    rw [hcons, Element.calls]
    cases hact : e.eval b stack c with
    | ok stack' c' =>
      rw [bind_of_ok hact]
      exact ((Ends.of_ok hact).1 heval).trans (ih stack' c')
    | error fault c' =>
      rw [bind_of_error hact]
      cases (Ends.of_error hact).1 heval
      exact .refl c

end Element

variable {σ : Type}

namespace Exec

theorem context_echo [Writer σ] (elements : List Element) (m : MachineOn σ) :
    (finalState (echo elements m)).context =
      finalState (Element.evalAll m.bindings elements [] m.context) := by
  cases hact : Element.evalAll m.bindings elements [] m.context with
  | ok stack c =>
    rw [echo_of_ok hact]
    have hkept := (Keeps.forM output_writeValue stack.reverse).finalState { m with context := c }
    exact congrArg (·.2.2) hkept
  | error fault c => rw [echo_of_error hact]; rfl

/-! ## Loops -/

/-- The context is what it was before. -/
abbrev KeepsContext {α : Type} (act : Exec σ α) : Prop :=
  Keeps MachineOn.context (fun _ => True) act

theorem keepsContext_ofExcept {α : Type} (x : Except Fault α) :
    KeepsContext (ofExcept x : Exec σ α) := by
  cases x with
  | ok a => exact Keeps.pure a
  | error e => exact Keeps.throw trivial

theorem keepsContext_peek (name : String) : KeepsContext (peek name : Exec σ Value) :=
  Keeps.get.bind fun _ => keepsContext_ofExcept _

theorem keepsContext_countIteration : KeepsContext (countIteration : Exec σ Unit) := by
  intro m
  refine (ends_countIteration m).imp ?_ ?_
  · rintro _ _ ⟨rfl, -⟩
    rfl
  · rintro _ _ ⟨rfl, -⟩
    exact ⟨rfl, trivial⟩

theorem keepsContext_nextRound (name : String) (r : Bounds) :
    KeepsContext (nextRound name r : Exec σ _) := by
  refine (keepsContext_peek name).bind fun current => (keepsContext_ofExcept _).bind fun order => ?_
  split
  · exact Keeps.pure _
  · exact keepsContext_countIteration.bind fun _ => Keeps.pure _

theorem keepsContext_advance (name : String) (r : Bounds) :
    KeepsContext (advance name r : Exec σ Bool) := by
  refine (keepsContext_peek name).bind fun current => ?_
  split
  · rename_i next _
    have hrebind : KeepsContext (rebind name (.number next) : Exec σ Unit) :=
      Keeps.modify fun _ => rfl
    exact hrebind.bind fun _ => Keeps.pure _
  · exact Keeps.pure _
  · exact Keeps.throw trivial

theorem context_withBinding (name : String) (v : Value) (body : Exec σ Unit) (m : MachineOn σ) :
    (finalState (withBinding name v body m)).context =
      (finalState (body { m with bindings := m.bindings.bind name v })).context := by
  have hunbind (n : MachineOn σ) : (finalState (unbind name n)).context = n.context := by
    unfold unbind
    cases n.bindings.unbind name <;> rfl
  unfold withBinding
  cases body { m with bindings := m.bindings.bind name v } with
  | ok u n => exact hunbind n
  | error h n =>
    dsimp only
    have hn := hunbind n
    cases hact : unbind name n <;> rw [hact] at hn <;> exact hn

variable {name : String} {r : Bounds} {body : Exec σ Unit} {inside : MachineOn σ → List Call}

/-- Only the body of a round changes the context, if it is started at all. -/
theorem after_oneRound
    (hbody : ∀ m : MachineOn σ, m.context.After (inside m) (finalState (body m)).context)
    {v : Value} {m m₁ : MachineOn σ} (hnext : nextRound name r m = .ok (some v) m₁) :
    m.context.After (inside m₁) (finalState (oneRound name r body m)).context := by
  have hsame : m₁.context = m.context := (Ends.of_ok hnext).1 (keepsContext_nextRound name r m)
  have hrun := hbody m₁
  rw [hsame] at hrun
  rw [oneRound_of_some hnext]
  cases hact : body m₁ with
  | error h m₂ =>
    rw [hact] at hrun
    rw [bind_of_error hact]
    exact hrun
  | ok u m₂ =>
    rw [hact] at hrun
    rw [bind_of_ok hact, (keepsContext_advance name r).finalState]
    exact hrun

theorem after_rounds
    (hbody : ∀ m : MachineOn σ, m.context.After (inside m) (finalState (body m)).context)
    (more : Nat) (m : MachineOn σ) :
    m.context.After ((entries name r body more m).flatMap inside)
      (finalState (rounds name r body more m)).context := by
  induction more generalizing m with
  | zero => exact .refl _
  | succ more ih =>
    rw [rounds_succ, entries]
    cases hnext : nextRound name r m with
    | error h m₁ =>
      have hround : oneRound name r body m = .error h m₁ := bind_of_error hnext
      have hsame : m₁.context = m.context :=
        ((Ends.of_error hnext).1 (keepsContext_nextRound name r m)).1
      rw [bind_of_error hround]
      exact hsame ▸ .refl _
    | ok next m₁ =>
      cases next with
      | none =>
        have hround : oneRound name r body m = .ok false m₁ := bind_of_ok hnext
        have hsame : m₁.context = m.context :=
          (Ends.of_ok hnext).1 (keepsContext_nextRound name r m)
        rw [bind_of_ok hround]
        exact hsame ▸ .refl _
      | some v =>
        have hafter := after_oneRound hbody hnext
        dsimp only
        rw [List.flatMap_cons]
        cases hround : oneRound name r body m with
        | error h m₂ =>
          rw [hround] at hafter
          rw [bind_of_error hround]
          exact hafter.trans (.refl _)
        | ok again m₂ =>
          rw [hround] at hafter
          rw [bind_of_ok hround]
          cases again with
          | true => exact hafter.trans (ih m₂)
          | false => exact hafter.trans (.refl _)

/-- The rounds before an entry have made of the context what it is there. -/
theorem after_entries
    (hbody : ∀ m : MachineOn σ, m.context.After (inside m) (finalState (body m)).context)
    {more : Nat} {m m₁ : MachineOn σ} {earlier later : List (MachineOn σ)}
    (h : entries name r body more m = earlier ++ m₁ :: later) :
    m.context.After (earlier.flatMap inside) m₁.context := by
  induction more generalizing m earlier with
  | zero => exact absurd h.symm (by simp [entries])
  | succ more ih =>
    rw [entries] at h
    split at h
    · rename_i v m₀ hnext
      cases earlier with
      | nil =>
        cases List.head_eq_of_cons_eq h
        have hsame : m₁.context = m.context := (Ends.of_ok hnext).1 (keepsContext_nextRound name r m)
        exact hsame ▸ .refl _
      | cons first earlier =>
        obtain ⟨hfirst, hrest⟩ := List.cons.inj h
        have hround := after_oneRound hbody hnext
        split at hrest
        · rename_i m' hagain
          rw [hagain] at hround
          rw [List.flatMap_cons, ← hfirst]
          exact hround.trans (ih hrest)
        · exact absurd hrest.symm (by simp)
    · exact absurd h.symm (by simp)

theorem after_loop (limit : Nat) {head : LoopHead}
    (hbody : ∀ m : MachineOn σ, m.context.After (inside m) (finalState (body m)).context)
    (m : MachineOn σ) : m.context.After (loopCalls limit head body inside m)
      (finalState (loop limit head body m)).context := by
  have hloop : loop limit head body m = (ofExcept (bounds m.bindings head) >>= fun r =>
      withBinding head.name (.number r.start) (rounds head.name r body limit)) m := rfl
  rw [hloop, loopCalls]
  cases bounds m.bindings head with
  | error e => exact .refl _
  | ok r =>
    have hbinding := context_withBinding head.name (.number r.start)
      (rounds head.name r body limit) m
    show m.context.After _ (finalState
      (withBinding head.name (.number r.start) (rounds head.name r body limit) m)).context
    rw [hbinding]
    exact after_rounds hbody limit
      { m with bindings := m.bindings.bind head.name (.number r.start) }

end Exec

/-! ## Templates -/

variable [Writer σ]

mutual

theorem Node.after (limit : Nat) : ∀ (n : Node) (m : MachineOn σ),
    m.context.After (n.calls limit m) (finalState (n.run limit m)).context
  | .text s, m => by
    have hkept := (Exec.output_write s).finalState m
    have hcontext : (finalState ((Node.text s).run limit m)).context = m.context :=
      congrArg (·.2.2) hkept
    rw [hcontext]
    exact .refl _
  | .echo elements, m => by
    have hcontext := Exec.context_echo elements m
    have hafter := Element.after_evalAll m.bindings elements [] m.context
    rw [← hcontext] at hafter
    exact hafter
  | .loop head body, m => Exec.after_loop limit (Template.after limit body) m

/-- The context that a run leaves, also when it fails, is what its calls have made of it. -/
theorem Template.after (limit : Nat) : ∀ (ns : List Node) (m : MachineOn σ),
    m.context.After (Template.calls limit ns m) (finalState (Template.run limit ns m)).context
  | [], _ => .refl _
  | n :: ns, m => by
    have hafter := Node.after limit n m
    rw [Template.run, Template.calls]
    dsimp only
    cases hact : n.run limit m with
    | ok u m' =>
      rw [hact] at hafter
      rw [bind_of_ok hact]
      exact hafter.trans (Template.after limit ns m')
    | error h m' =>
      rw [hact] at hafter
      rw [bind_of_error hact]
      exact hafter.trans (.refl _)

end

/-! ## On the way -/

/-- A run of the nodes comes to one of the nodes in them, when it has brought these calls to their
end. -/
inductive Template.Visits (limit : Nat) :
    List Node → MachineOn σ → List Call → Node → MachineOn σ → Prop
  | here {n : Node} {ns : List Node} {m : MachineOn σ} : Visits limit (n :: ns) m [] n m
  | inside {head : LoopHead} {body ns : List Node} {m m₁ m' : MachineOn σ} {r : Exec.Bounds}
      {earlier later : List (MachineOn σ)} {calls : List Call} {n : Node} :
      Exec.bounds m.bindings head = .ok r →
      Exec.entries head.name r (Template.run limit body) limit
        { m with bindings := m.bindings.bind head.name (.number r.start) } =
          earlier ++ m₁ :: later →
      Visits limit body m₁ calls n m' →
      Visits limit (.loop head body :: ns) m
        (earlier.flatMap (Template.calls limit body) ++ calls) n m'
  | later {n n' : Node} {ns : List Node} {m m₁ m' : MachineOn σ} {calls : List Call} :
      n.run limit m = .ok () m₁ → Visits limit ns m₁ calls n' m' →
      Visits limit (n :: ns) m (n.calls limit m ++ calls) n' m'

/-- The calls until then have made of the context what the node finds. -/
theorem Template.Visits.after {limit : Nat} {ns : List Node} {m m' : MachineOn σ}
    {calls : List Call} {n : Node} (h : Visits limit ns m calls n m') :
    m.context.After calls m'.context := by
  induction h with
  | here => exact .refl _
  | @inside head body _ _ _ _ _ _ _ _ _ _ hentries _ ih =>
    exact (Exec.after_entries (Template.after limit body) hentries).trans ih
  | @later n _ _ m _ _ _ hrun _ ih =>
    have hafter := Node.after limit n m
    rw [hrun] at hafter
    exact hafter.trans ih

/-! ## Whole visits -/

theorem Template.visit_machine (limit : Nat) (t : Template) (m : MachineOn σ) :
    (t.visit limit m).machine = finalState (Template.run limit t m) := by
  unfold Template.visit
  cases Template.run limit t m <;> rfl

/-- However a visit ends, the plain parameters and the iteration limit are as they were, and every
other part of the context has what the last call that came to its end gave it, or took away from it,
and else what it had before. A single call that comes to its end leaves all alone but its own store,
and a call that fails leaves the whole context alone. -/
theorem context_follows_calls (limit : Nat) (t : Template) (m : MachineOn σ) :
    m.context.After (Template.calls limit t m) (t.visit limit m).machine.context ∧
    (∀ (f : Builtin) (stack : List Value) (c : Context),
      Ends (f.call stack) c
        (fun _ c' => c.After [f.on stack] c' ∧
          (∀ store : Store, f ≠ store.setter → f ≠ store.remover → ∀ name : String,
            (store.parameters c')[name]? = (store.parameters c)[name]?) ∧
          (f ≠ .setMimeType → c'.mimeType = c.mimeType))
        fun _ c' => c' = c) ∧
    ∀ (b : Bindings) (name : String) (stack : List Value) (c c' : Context) (fault : Fault),
      (Element.function name).eval b stack c = .error fault c' → c' = c := by
  refine ⟨?_, fun f stack c => ?_, fun b name stack c c' fault h => ?_⟩
  · rw [Template.visit_machine]
    exact Template.after limit t m
  · refine (f.records_call stack c).imp (fun _ c' hafter => ⟨hafter, ?_, ?_⟩) fun _ _ => id
    · intro store hset hremove name
      have hstored := hafter.stored store name
      rw [Call.last?_singleton, Builtin.on, Call.entry?_eq_none hset hremove] at hstored
      exact hstored
    · intro hset
      have hmime := hafter.mimeType
      rw [Call.last?_singleton, Builtin.on, Call.mimeType?_eq_none hset] at hmime
      exact hmime
  · exact (Ends.of_error h).1 (Element.after_eval b (.function name) stack c)

end TagTemplate
