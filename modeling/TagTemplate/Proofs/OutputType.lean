import TagTemplate.Proofs.Comparison
import TagTemplate.Proofs.StoredParameters

/-! The type of the output. Templates can set it, but nothing that a run does depends on it. Two
runs from contexts that differ in nothing else bring the same calls to their end, so from the
first of these on that sets the type their contexts are the same. -/

namespace TagTemplate

/-! ## Calls of runs side by side -/

/-- Contexts that the elements cannot tell apart lead to the same calls. -/
theorem Element.calls_eq {calls : Builtin → Prop} {R : Context → Context → Prop}
    (hR : Context.Hidden calls R) (b : Bindings) {es : List Element}
    (hcalls : ∀ f ∈ es.flatMap Element.builtins, calls f) (stack : List Value) {c d : Context}
    (h : R c d) : Element.calls b es stack d = Element.calls b es stack c := by
  induction es generalizing stack c d with
  | nil => rfl
  | cons e es ih =>
    have hhead : ∀ f ∈ e.builtins, calls f := fun f hf => hcalls f (by simp [hf])
    have htail : ∀ f ∈ es.flatMap Element.builtins, calls f := fun f hf =>
      hcalls f (by rw [List.flatMap_cons]; exact List.mem_append_right _ hf)
    have heval := (runs_eval hR (.refl b e) hhead stack).together c d h
    rw [Element.calls, Element.calls]
    rcases heval.ended fun _ _ _ => id with
      ⟨stack', c', d', hc, hd, h'⟩ | ⟨_, _, c', d', hc, hd, -⟩
    · rw [hc, hd]
      dsimp only
      rw [ih htail stack' h']
    · rw [hc, hd]

theorem flatMap_eq_of_forall₂ {α β γ : Type} {R : α → β → Prop} {f : α → List γ} {g : β → List γ}
    {as : List α} {bs : List β} (h : List.Forall₂ R as bs) (hfg : ∀ a b, R a b → g b = f a) :
    bs.flatMap g = as.flatMap f := by
  have hsame : List.Forall₂ Eq (as.flatMap f) (bs.flatMap g) := by
    refine List.rel_flatMap h ?_
    intro a b hab
    rw [hfg a b hab, List.forall₂_eq_eq_eq]
  rw [List.forall₂_eq_eq_eq] at hsame
  exact hsame.symm

namespace Exec

variable {σ τ : Type} [Writer σ] [Writer τ] {C : Comparison σ τ} {b b' : Bindings}
  {name name' : String} {body : Exec σ Unit} {body' : Exec τ Unit}

theorem runs_oneRound (r : Bounds)
    (hbody : (C.under (Topped b b' name name')).Runs body body') :
    (C.under (Topped b b' name name')).Runs (oneRound name r body) (oneRound name' r body') := by
  refine (runs_nextRound r).bind fun next => ?_
  cases next with
  | none => exact .pure _
  | some _ => exact hbody.bind fun _ => runs_advance r

/-- Round by round, the bodies are started on machines that stand for each other. -/
theorem forall₂_entries (hnever : ∀ m h n, ¬C.ahead m h n) (r : Bounds)
    (hbody : (C.under (Topped b b' name name')).Runs body body') (more : Nat) {m : MachineOn σ}
    {n : MachineOn τ} (h : (C.under (Topped b b' name name')).same m n) :
    List.Forall₂ (C.under (Topped b b' name name')).same (entries name r body more m)
      (entries name' r body' more n) := by
  induction more generalizing m n with
  | zero => exact .nil
  | succ more ih =>
    have hround := ((runs_oneRound r hbody).together m n h).ended hnever
    rw [entries, entries]
    rcases ((runs_nextRound r).together m n h).ended hnever with
      ⟨next, m₁, n₁, hm, hn, hstarted⟩ | ⟨_, _, m₁, n₁, hm, hn, -⟩
    · rw [hm, hn]
      cases next with
      | none => exact .nil
      | some v =>
        refine .cons hstarted ?_
        rcases hround with ⟨again, m₂, n₂, hm₂, hn₂, h₂⟩ | ⟨_, _, m₂, n₂, hm₂, hn₂, -⟩
        · rw [hm₂, hn₂]
          cases again with
          | true => exact ih h₂
          | false => exact .nil
        · rw [hm₂, hn₂]
          exact .nil
    · rw [hm, hn]
      exact .nil

theorem loopCalls_eq (hnever : ∀ m h n, ¬C.ahead m h n) {limit : Nat} {head : LoopHead}
    {inside : MachineOn σ → List Call} {inside' : MachineOn τ → List Call}
    (hbody : ∀ b, (C.fixed b b).Runs body body')
    (hinside : ∀ {m n}, C.same m n → n.bindings = m.bindings → inside' n = inside m)
    {m : MachineOn σ} {n : MachineOn τ} (h : C.same m n) (hbindings : n.bindings = m.bindings) :
    loopCalls limit head body' inside' n = loopCalls limit head body inside m := by
  rw [loopCalls, loopCalls, hbindings]
  cases bounds m.bindings head with
  | error e => rfl
  | ok r =>
    have hstart : (C.under (Topped m.bindings m.bindings head.name head.name)).same
        { m with bindings := m.bindings.bind head.name (.number r.start) }
        { n with bindings := m.bindings.bind head.name (.number r.start) } :=
      ⟨C.same_bindings h _ _, _, rfl, rfl⟩
    have hentries := forall₂_entries hnever r (runs_topped fun v => hbody _) limit hstart
    refine flatMap_eq_of_forall₂ hentries ?_
    intro m n hmn
    obtain ⟨hsame, v, hm, hn⟩ := hmn
    exact hinside hsame (hn.trans hm.symm)

theorem runs_node {n : Node} (hcalls : ∀ f ∈ n.builtins, C.calls f) (limit : Nat) (b : Bindings) :
    (C.fixed b b).Runs (n.run limit) (n.run limit) := by
  have hsingle (ρ : Type) [Writer ρ] : (Template.run limit [n] : Exec ρ Unit) = n.run limit :=
    bind_pure_unit
  rw [← hsingle σ, ← hsingle τ]
  exact runs_self (by simpa [Template.builtins] using hcalls) limit b

end Exec

section

variable {σ τ : Type} [Writer σ] [Writer τ] {C : Comparison σ τ}

mutual

theorem Node.calls_eq (hnever : ∀ m h n, ¬C.ahead m h n) (limit : Nat) : ∀ (n : Node),
    (∀ f ∈ n.builtins, C.calls f) → ∀ {m : MachineOn σ} {m' : MachineOn τ}, C.same m m' →
      m'.bindings = m.bindings → n.calls limit m' = n.calls limit m
  | .text _, _, _, _, _, _ => rfl
  | .echo elements, hcalls, m, m', h, hbindings => by
    rw [Node.calls]
    dsimp only
    rw [hbindings]
    exact Element.calls_eq C.hidden m.bindings hcalls [] (C.same_contexts h)
  | .loop head body, hcalls, m, m', h, hbindings =>
    Exec.loopCalls_eq hnever (Exec.runs_self hcalls limit)
      (Template.calls_eq hnever limit body hcalls) h hbindings

/-- Runs that both go to their end bring the same calls to theirs. -/
theorem Template.calls_eq (hnever : ∀ m h n, ¬C.ahead m h n) (limit : Nat) : ∀ (ns : List Node),
    (∀ f ∈ Template.builtins ns, C.calls f) → ∀ {m : MachineOn σ} {m' : MachineOn τ}, C.same m m' →
      m'.bindings = m.bindings → Template.calls limit ns m' = Template.calls limit ns m
  | [], _, _, _, _, _ => rfl
  | n :: ns, hcalls, m, m', h, hbindings => by
    rw [Template.builtins, List.forall_mem_append] at hcalls
    have hrun := (Exec.runs_node hcalls.1 limit m.bindings).together m m' ⟨h, rfl, hbindings⟩
    rw [Template.calls, Template.calls]
    dsimp only
    rw [Node.calls_eq hnever limit n hcalls.1 h hbindings]
    rcases hrun.ended hnever with
      ⟨_, m₁, m₁', hm, hm', h₁, hb, hb'⟩ | ⟨_, _, m₁, m₁', hm, hm', -⟩
    · rw [hm, hm']
      dsimp only
      rw [Template.calls_eq hnever limit ns hcalls.2 h₁ (hb'.trans hb.symm)]
    · rw [hm, hm']

end

end

/-! ## Calls that set the type -/

/-- A call of a function that has come to its end. -/
inductive Call.Ended : Call → Prop
  | intro {f : Builtin} {stack rest : List Value} {c c' : Context} :
      f.call stack c = .ok rest c' → Ended (f.on stack)

/-- It has had its operand, so it sets the type if its function does. -/
theorem Call.Ended.mimeType?_eq_none_iff {call : Call} (h : call.Ended) :
    call.mimeType? = none ↔ call.function ≠ .setMimeType := by
  cases h with
  | @intro f stack _ _ _ hcall =>
    refine ⟨?_, fun hne => Call.mimeType?_eq_none hne⟩
    intro hnone hf
    cases hf
    cases stack with
    | nil => cases hcall
    | cons mime stack => cases hnone

theorem Element.ended_calls (b : Bindings) (es : List Element) (stack : List Value) (c : Context) :
    ∀ call ∈ Element.calls b es stack c, call.Ended := by
  induction es generalizing stack c with
  | nil => exact fun _ hmem => absurd hmem List.not_mem_nil
  | cons e es ih =>
    intro call hmem
    rw [Element.calls] at hmem
    split at hmem
    · rename_i rest c' heval
      rcases List.mem_append.1 hmem with hmem | hmem
      · cases e with
        | function name =>
          rw [Option.mem_toList, call?, Option.map_eq_some_iff] at hmem
          obtain ⟨f, hf, rfl⟩ := hmem
          rw [eval, hf] at heval
          exact .intro heval
        | _ => cases hmem
      · exact ih rest c' call hmem
    · cases hmem

section

variable {σ : Type}

theorem Exec.ended_loopCalls {limit : Nat} {head : LoopHead} {body : Exec σ Unit}
    {inside : MachineOn σ → List Call} (hinside : ∀ m, ∀ call ∈ inside m, call.Ended)
    (m : MachineOn σ) : ∀ call ∈ loopCalls limit head body inside m, call.Ended := by
  intro call hmem
  unfold loopCalls at hmem
  split at hmem
  · obtain ⟨m', -, hcall⟩ := List.mem_flatMap.1 hmem
    exact hinside m' call hcall
  · cases hmem

variable [Writer σ]

mutual

theorem Node.ended_calls (limit : Nat) : ∀ (n : Node) (m : MachineOn σ),
    ∀ call ∈ n.calls limit m, call.Ended
  | .text _, _ => fun _ hmem => absurd hmem List.not_mem_nil
  | .echo elements, m => Element.ended_calls m.bindings elements [] m.context
  | .loop _ body, m => Exec.ended_loopCalls (Template.ended_calls limit body) m

theorem Template.ended_calls (limit : Nat) : ∀ (ns : List Node) (m : MachineOn σ),
    ∀ call ∈ Template.calls limit ns m, call.Ended
  | [], _ => fun _ hmem => absurd hmem List.not_mem_nil
  | n :: ns, m => by
    intro call hmem
    rw [Template.calls] at hmem
    rcases List.mem_append.1 hmem with hmem | hmem
    · exact Node.ended_calls limit n m call hmem
    · split at hmem
      · exact Template.ended_calls limit ns _ call hmem
      · cases hmem

end

end

namespace Context

/-- Contexts that are the same apart from the type of the output. -/
def SameButType (c d : Context) : Prop := ∃ mimeType, d = c.setMimeType mimeType

theorem hidden_sameButType : Context.Hidden (fun _ => True) SameButType where
  parameters _ h _ := by obtain ⟨_, rfl⟩ := h; rfl
  persistent _ h _ := by obtain ⟨_, rfl⟩ := h; rfl
  temporary _ h _ := by obtain ⟨_, rfl⟩ := h; rfl
  setMimeType _ h mimeType := by obtain ⟨_, rfl⟩ := h; exact ⟨mimeType, rfl⟩
  setPersistent _ h _ _ := by obtain ⟨mimeType, rfl⟩ := h; exact ⟨mimeType, rfl⟩
  setTemporary _ h _ _ := by obtain ⟨mimeType, rfl⟩ := h; exact ⟨mimeType, rfl⟩
  removePersistent _ h _ := by obtain ⟨mimeType, rfl⟩ := h; exact ⟨mimeType, rfl⟩
  removeTemporary _ h _ := by obtain ⟨mimeType, rfl⟩ := h; exact ⟨mimeType, rfl⟩

/-- Calls of which one sets the type leave one type, whatever it was before. -/
theorem After.mimeType_eq {c c' d d' : Context} {calls : List Call} (h : c.After calls c')
    (h' : d.After calls d') (hset : ∃ call ∈ calls, call.mimeType? ≠ none) :
    d'.mimeType = c'.mimeType := by
  rw [h.mimeType, h'.mimeType]
  cases hlast : Call.last? Call.mimeType? calls with
  | some mimeType => rfl
  | none =>
    obtain ⟨call, hmem, hne⟩ := hset
    exact absurd (Call.last?_eq_none.1 hlast call hmem) hne

theorem After.mimeType_kept {c c' : Context} {calls : List Call} (h : c.After calls c')
    (hnone : ∀ call ∈ calls, call.mimeType? = none) : c'.mimeType = c.mimeType := by
  rw [h.mimeType, Call.last?_eq_none.2 hnone]
  rfl

end Context

/-! ## Write-only -/

/-- Whatever the type of the output is before a run, the run goes the same way: it makes the same
output and the same calls, counts the same iterations, halts with the same fault if it does, and
leaves the same context apart from the type. This is the same, too, where some call has set it, and
what it was before where none has. -/
theorem output_type_write_only {σ : Type} [Writer σ] (limit : Nat) (t : Template) (m : MachineOn σ)
    (mimeType : String) :
    let n : MachineOn σ := { m with context := m.context.setMimeType mimeType }
    let v := t.visit limit m
    let w := t.visit limit n
    w.machine.sink = v.machine.sink ∧ w.halt = v.halt ∧
      w.machine.iterations = v.machine.iterations ∧ w.machine.bindings = v.machine.bindings ∧
      w.machine.context = v.machine.context.setMimeType w.machine.context.mimeType ∧
      Template.calls limit t n = Template.calls limit t m ∧
      ((∃ call ∈ Template.calls limit t m, call.function = .setMimeType) →
        w.machine.context.mimeType = v.machine.context.mimeType) ∧
      ((∀ call ∈ Template.calls limit t m, call.function ≠ .setMimeType) →
        v.machine.context.mimeType = m.context.mimeType ∧
        w.machine.context.mimeType = mimeType) := by
  intro n v w
  let C : Comparison σ σ := .upTo Context.hidden_sameButType
    (fun h => by obtain ⟨_, rfl⟩ := h; rfl) fun _ => Eq.refl _
  -- both runs go to their end, so that neither can make calls that the other does not
  have hnever : ∀ m h n, ¬C.ahead m h n := fun _ _ _ => id
  have hstart : C.same m n := ⟨rfl, ⟨mimeType, rfl⟩, rfl⟩
  have hcalls : Template.calls limit t n = Template.calls limit t m :=
    Template.calls_eq hnever limit t (fun _ _ => trivial) hstart rfl
  have hsets : ∀ call ∈ Template.calls limit t m,
      call.mimeType? = none ↔ call.function ≠ .setMimeType :=
    fun call hmem => (Template.ended_calls limit t m call hmem).mimeType?_eq_none_iff
  have hafter : m.context.After (Template.calls limit t m) v.machine.context := by
    rw [Template.visit_machine]
    exact Template.after limit t m
  have hafter' : n.context.After (Template.calls limit t m) w.machine.context := by
    rw [Template.visit_machine, ← hcalls]
    exact Template.after limit t n
  rcases C.visits_self hstart rfl (fun _ _ => trivial) limit with
    ⟨hsame, hbindings, hbindings', hhalt⟩ | ⟨_, _, hahead⟩
  · refine ⟨hsame.sink, eq_of_rel_eq hhalt, hsame.iterations, hbindings'.trans hbindings.symm, ?_,
      hcalls, ?_, ?_⟩
    · obtain ⟨mimeType', hcontext⟩ := hsame.context
      rw [hcontext]
      rfl
    · intro hset
      obtain ⟨call, hmem, hf⟩ := hset
      exact hafter.mimeType_eq hafter' ⟨call, hmem, fun hnone => (hsets call hmem).1 hnone hf⟩
    · intro hnone
      have hquiet : ∀ call ∈ Template.calls limit t m, call.mimeType? = none :=
        fun call hmem => (hsets call hmem).2 (hnone call hmem)
      exact ⟨hafter.mimeType_kept hquiet, hafter'.mimeType_kept hquiet⟩
  · exact hahead.elim

/-- The type stays set where the run fails afterwards. -/
theorem output_type_write_only_set :
    let t : Template := [.echo [.string "text/css", .function "setMimeType", .operator '+']]
    let m : Machine := ⟨Sink.unbounded, .default, .empty, 0⟩
    let n : Machine := { m with context := m.context.setMimeType "text/plain" }
    (∃ call ∈ Template.calls 1 t m, call.function = .setMimeType) ∧
      (t.visit 1 n).halt = (t.visit 1 m).halt ∧ (t.visit 1 m).halt ≠ none ∧
      (t.visit 1 n).machine.context.mimeType = (t.visit 1 m).machine.context.mimeType := by
  intro t m n
  have hset : ∃ call ∈ Template.calls 1 t m, call.function = .setMimeType :=
    ⟨⟨.setMimeType, [.text "text/css"]⟩, List.mem_singleton.2 rfl, rfl⟩
  have hrun := output_type_write_only 1 t m "text/plain"
  exact ⟨hset, hrun.2.1, by decide, hrun.2.2.2.2.2.2.1 hset⟩

end TagTemplate
