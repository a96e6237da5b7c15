import TagTemplate.Proofs.History
import TagTemplate.Render

/-! The iteration limit ends every run. The count belongs to the machine and not to a loop, so it
bounds the rounds of all loops together, in one template and in all that follow on the machine;
a template that runs into the limit has counted one iteration that it did not start. -/

namespace TagTemplate

variable {σ : Type}

/-- From `m` to `m'` some rounds were started, none of them past the limit, and each was counted;
at most `uncounted` further ones were counted and not started. -/
structure Counts (limit : Nat) (m : MachineOn σ) (started : List Round) (unstarted : Nat)
    (m' : MachineOn σ) : Prop where
  limit_eq : m'.context.maxLoopIterations = some limit
  le_count : m.iterations + started.length ≤ m'.iterations
  count_le : m'.iterations ≤ m.iterations + started.length + unstarted
  within : started = [] ∨ m.iterations + started.length ≤ limit

namespace Counts

variable {limit unstarted : Nat} {m m' m'' : MachineOn σ} {started started' : List Round}

theorem trans (h : Counts limit m started 0 m') (h' : Counts limit m' started' unstarted m'') :
    Counts limit m (started ++ started') unstarted m'' := by
  have hle := h.le_count
  have hge := h.count_le
  have hle' := h'.le_count
  have hge' := h'.count_le
  refine ⟨h'.limit_eq, by rw [List.length_append]; omega, by rw [List.length_append]; omega, ?_⟩
  rcases h'.within with rfl | hwithin
  · rw [List.append_nil]; exact h.within
  · rw [List.length_append]; exact .inr (by omega)

/-- Counting one iteration too many is no harm at the end. -/
theorem weaken (h : Counts limit m started 0 m') : Counts limit m started 1 m' :=
  ⟨h.limit_eq, h.le_count, Nat.le_succ_of_le h.count_le, h.within⟩

theorem nothing (hlimit : m.context.maxLoopIterations = some limit)
    (h : m'.frame = m.frame) : Counts limit m [] 0 m' := by
  have hframe := h
  simp only [MachineOn.frame, Context.fixed, Prod.mk.injEq] at hframe
  obtain ⟨-, hcount, -, hmax⟩ := hframe
  exact ⟨hmax.trans hlimit, by simp [hcount], by simp [hcount], .inl rfl⟩

theorem refused (hlimit : m.context.maxLoopIterations = some limit) :
    Counts limit m [] 1 (Exec.counted m) :=
  ⟨hlimit, Nat.le_succ _, Nat.le_refl _, .inl rfl⟩

theorem one (hlimit : m.context.maxLoopIterations = some limit) (hmay : Exec.MayCount m)
    (round : Round) : Counts limit m [round] 0 (Exec.counted m) :=
  ⟨hlimit, Nat.le_refl _, Nat.le_refl _, .inr (hmay limit hlimit)⟩

/-- Bindings do not count. -/
theorem of_bindings {b b' : Bindings}
    (h : Counts limit { m with bindings := b } started unstarted m') :
    Counts limit m started unstarted { m' with bindings := b' } :=
  ⟨h.limit_eq, h.le_count, h.count_le, h.within⟩

end Counts

namespace Exec

/-- However the computation ends, it has not given up, and the rounds it started are counted. -/
def Accounted (limit : Nat) (act : Exec σ Unit) (started : MachineOn σ → List Round) : Prop :=
  ∀ m, m.context.maxLoopIterations = some limit →
    Ends act m (fun _ m' => Counts limit m (started m) 0 m') fun h m' =>
      h ≠ .outOfRounds ∧ Counts limit m (started m) 1 m'

theorem accounted_of_keeps {limit : Nat} {act : Exec σ Unit}
    (h : Keeps MachineOn.frame Halt.Plain act) : Accounted limit act fun _ => [] := by
  intro m hlimit
  refine (h m).imp ?_ ?_
  · intro _ m' hframe
    exact .nothing hlimit hframe
  · rintro h m' ⟨hframe, e, rfl, -⟩
    exact ⟨Halt.fault_ne_outOfRounds e, (Counts.nothing hlimit hframe).weaken⟩

section

variable {α : Type} {limit : Nat} {m m₁ : MachineOn σ} {first : List Round}

/-- What ends after some rounds is counted together with them. -/
theorem counted_after {act : Exec σ Unit} {rest : List Round} (hfirst : Counts limit m first 0 m₁)
    (h : Ends act m₁ (fun _ m' => Counts limit m₁ rest 0 m') fun h m' =>
      h ≠ .outOfRounds ∧ Counts limit m₁ rest 1 m') :
    Ends act m₁ (fun _ m' => Counts limit m (first ++ rest) 0 m') fun h m' =>
      h ≠ .outOfRounds ∧ Counts limit m (first ++ rest) 1 m' := by
  refine h.imp ?_ ?_
  · intro _ _ hrest
    exact hfirst.trans hrest
  · intro _ _ hrest
    exact ⟨hrest.1, hfirst.trans hrest.2⟩

theorem counted_bind {act : Exec σ α} {next : α → Exec σ Unit}
    {rest : α → MachineOn σ → List Round} {Q : α → MachineOn σ → Prop}
    (hact : Ends act m (fun a m' => Counts limit m first 0 m' ∧ Q a m') fun h m' =>
      h ≠ .outOfRounds ∧ Counts limit m first 1 m')
    (hnext : ∀ a m', Counts limit m first 0 m' → Q a m' →
      Ends (next a) m' (fun _ m'' => Counts limit m' (rest a m') 0 m'') fun h m'' =>
        h ≠ .outOfRounds ∧ Counts limit m' (rest a m') 1 m'') :
    Ends (act >>= next) m
      (fun _ m' => Counts limit m (first ++ startedAfter act rest m) 0 m') fun h m' =>
        h ≠ .outOfRounds ∧ Counts limit m (first ++ startedAfter act rest m) 1 m' := by
  rw [Ends.bind_iff]
  cases hrun : act m with
  | error h m' =>
    rw [startedAfter_error hrun, List.append_nil]
    rw [Ends.of_error hrun] at hact ⊢
    exact hact
  | ok a m' =>
    rw [startedAfter_ok hrun]
    rw [Ends.of_ok hrun] at hact ⊢
    exact counted_after hact.1 (hnext a m' hact.1 hact.2)

end

theorem counted_body {limit : Nat} {b : Bindings} {name : String} {body : Exec σ Unit}
    {inside : MachineOn σ → List Round} {m : MachineOn σ} (hbody : Accounted limit body inside)
    (hscoped : Scoped body) (htop : OnTop b name m)
    (hlimit : m.context.maxLoopIterations = some limit) :
    Ends body m (fun _ m' => Counts limit m (inside m) 0 m' ∧ OnTop b name m') fun h m' =>
      h ≠ .outOfRounds ∧ Counts limit m (inside m) 1 m' := by
  refine ((hbody m hlimit).and (hscoped m)).imp ?_ ?_
  · intro _ m' h
    refine ⟨h.1, ?_⟩
    unfold OnTop
    rw [h.2]
    exact htop
  · intro h m' hfailed
    exact hfailed.1

/-- The step of the variable starts nothing and keeps it on top. -/
theorem counted_advance {limit : Nat} {b : Bindings} {name : String} {m : MachineOn σ} (r : Bounds)
    (htop : OnTop b name m) (hlimit : m.context.maxLoopIterations = some limit) :
    Ends (advance name r) m (fun _ m' => Counts limit m [] 0 m' ∧ OnTop b name m') fun h m' =>
      h ≠ .outOfRounds ∧ Counts limit m [] 1 m' := by
  obtain ⟨v, hv⟩ := htop.find?
  refine ((ends_advance r hv).and (onTop_advance r htop)).imp ?_ ?_
  · intro again m' h
    have hsame : Counts limit m [] 0 m := .nothing hlimit rfl
    rcases h.1 with ⟨-, next, -, rfl⟩ | ⟨-, rfl, -⟩
    · exact ⟨hsame.of_bindings, h.2⟩
    · exact ⟨hsame, h.2⟩
  · intro h m' hfailed
    obtain ⟨⟨rfl, e, -, rfl⟩, -⟩ := hfailed
    exact ⟨Halt.fault_ne_outOfRounds _, (Counts.nothing hlimit rfl).weaken⟩

/-- A loop that is allowed more rounds than the limit leaves does not give up. -/
theorem accounted_rounds {limit : Nat} {head : LoopHead} {r : Bounds} {body : Exec σ Unit}
    {inside : MachineOn σ → List Round} {b : Bindings} (hbody : Accounted limit body inside)
    (hscoped : Scoped body) (more : Nat) {m : MachineOn σ} (htop : OnTop b head.name m)
    (hlimit : m.context.maxLoopIterations = some limit) (hmore : limit - m.iterations < more) :
    Ends (rounds head.name r body more) m
      (fun _ m' => Counts limit m (startedRounds head r body inside more m) 0 m') fun h m' =>
        h ≠ .outOfRounds ∧ Counts limit m (startedRounds head r body inside more m) 1 m' := by
  induction more generalizing m with
  | zero => omega
  | succ more ih =>
    obtain ⟨v, hv⟩ := htop.find?
    have hnext := ends_nextRound r hv
    unfold rounds startedRounds
    rw [Ends.bind_iff]
    cases hact : nextRound head.name r m with
    | error h m₁ =>
      rw [startedAfter_error hact]
      rw [Ends.of_error hact] at hnext ⊢
      rcases hnext with ⟨rfl, text, rfl⟩ | ⟨rfl, limit', -, -, rfl⟩
      · exact ⟨Halt.fault_ne_outOfRounds _, (Counts.nothing hlimit rfl).weaken⟩
      · exact ⟨Halt.fault_ne_outOfRounds _, Counts.refused hlimit⟩
    | ok next m₁ =>
      have htop₁ := onTop_nextRound r htop
      rw [startedAfter_ok hact]
      rw [Ends.of_ok hact] at hnext htop₁ ⊢
      rcases hnext with ⟨rfl, rfl⟩ | ⟨rfl, rfl, hmay⟩
      · exact Counts.nothing hlimit rfl
      · -- one round is started: its body, the step to the next value, and the rounds after it
        have hrun := counted_body hbody hscoped htop₁ (m := counted m) hlimit
        refine counted_after (Counts.one hlimit hmay ⟨head, r, v⟩) (counted_bind hrun ?_)
        intro _ m₂ hcounts₂ htop₂
        refine counted_bind (counted_advance r htop₂ hcounts₂.limit_eq) ?_
        intro again m₃ hcounts₃ htop₃
        have hle₂ : m.iterations + 1 + _ ≤ m₂.iterations := hcounts₂.le_count
        have hle₃ : m₂.iterations + 0 ≤ m₃.iterations := hcounts₃.le_count
        have hbelow := hmay limit hlimit
        cases again with
        | true => exact ih htop₃ hcounts₃.limit_eq (by omega)
        | false => exact Counts.nothing hcounts₃.limit_eq rfl

theorem accounted_loop {limit more : Nat} {head : LoopHead} {body : Exec σ Unit}
    {inside : MachineOn σ → List Round} (hbody : Accounted limit body inside)
    (hscoped : Scoped body) (hmore : limit < more) :
    Accounted limit (loop more head body) (startedLoop more head body inside) := by
  intro m hlimit
  refine ends_loop ?_ ?_
  · intro e he
    simp only [startedLoop, he]
    exact ⟨Halt.fault_ne_outOfRounds _, (Counts.nothing hlimit rfl).weaken⟩
  · intro r hr
    simp only [startedLoop, hr]
    have htop : OnTop m.bindings head.name
        { m with bindings := m.bindings.bind head.name (.number r.start) } := ⟨_, rfl⟩
    have hcounts := accounted_rounds (r := r) hbody hscoped more htop hlimit (by omega)
    refine (hcounts.and (onTop_rounds r hscoped more htop)).imp ?_ ?_
    · intro _ m' h
      exact ⟨h.2, h.1.of_bindings⟩
    · intro _ m' h
      exact ⟨h.2.1, h.1.1, h.1.2.of_bindings⟩

theorem accounted_next {limit : Nat} {a b : Exec σ Unit} {started started' : MachineOn σ → List Round}
    (ha : Accounted limit a started) (hb : Accounted limit b started') :
    Accounted limit (a >>= fun _ => b) fun m =>
      started m ++ startedAfter a (fun _ => started') m := by
  intro m hlimit
  have hfirst := (ha m hlimit).imp (fun _ _ h => And.intro h trivial) fun _ _ h => h
  exact counted_bind hfirst fun _ m' h _ => hb m' h.limit_eq

end Exec

variable [Writer σ] {limit more : Nat}

mutual

theorem Node.accounted (hmore : limit < more) :
    ∀ n : Node, Exec.Accounted (σ := σ) limit (n.run more) (n.started more)
  | .text s => Exec.accounted_of_keeps (Exec.keeps_write s)
  | .echo elements => Exec.accounted_of_keeps (Exec.keeps_echo elements)
  | .loop _ body => Exec.accounted_loop (Template.accounted hmore body)
      ((Exec.compatible_scoped more).template body) hmore

theorem Template.accounted (hmore : limit < more) :
    ∀ ns : List Node, Exec.Accounted (σ := σ) limit (Template.run more ns) (Template.started more ns)
  | [] => Exec.accounted_of_keeps (Keeps.pure _)
  | n :: ns => Exec.accounted_next (Node.accounted hmore n) (Template.accounted hmore ns)

end

/-! ## One machine, many templates -/

/-- A visit under a limit ends, whatever the count it begins with. -/
theorem Template.visit_counts (hmore : limit < more) (t : Template) {m : MachineOn σ}
    (hlimit : m.context.maxLoopIterations = some limit) :
    (t.visit more m).halt ≠ some .outOfRounds ∧
      Counts limit m (Template.started more t m) 1 (t.visit more m).machine := by
  have h := Template.accounted hmore t m hlimit
  unfold Ends at h
  unfold Template.visit
  split at h
  · rename_i hrun
    rw [hrun]
    exact ⟨nofun, h.weaken⟩
  · rename_i hrun
    rw [hrun]
    exact ⟨fun he => h.1 (Option.some.inj he), h.2⟩

/-- More rounds than the limit are never needed. -/
theorem Template.visit_of_lt (hmore : limit < more) (t : Template) {m : MachineOn σ}
    (hlimit : m.context.maxLoopIterations = some limit) :
    t.visit more m = t.visit (limit + 1) m := by
  have hends := (t.visit_counts (Nat.lt_succ_self limit) hlimit).1
  unfold Template.visit at hends ⊢
  rw [Template.run_of_le hmore]
  intro m' hrun
  rw [hrun] at hends
  exact hends rfl

theorem MachineOn.visitAll_of_lt (hmore : limit < more) (ts : List Template) {m : MachineOn σ}
    (hlimit : m.context.maxLoopIterations = some limit) :
    m.visitAll more ts = m.visitAll (limit + 1) ts := by
  induction ts generalizing m with
  | nil => rfl
  | cons t ts ih =>
    have hvisit := t.visit_of_lt hmore hlimit
    have hcounts := (t.visit_counts (Nat.lt_succ_self limit) hlimit).2
    simp only [MachineOn.visitAll, hvisit, ih hcounts.limit_eq]

/-- Every template counts at most one iteration that it does not start, so the count stays near
the limit, and with it what may still be started. -/
theorem MachineOn.visitAll_counts (hmore : limit < more) (ts : List Template) {m : MachineOn σ}
    (hlimit : m.context.maxLoopIterations = some limit) :
    (∀ v ∈ m.visitAll more ts, v.halt ≠ some .outOfRounds ∧
      v.machine.iterations ≤ max m.iterations limit + ts.length) ∧
    (m.startedByAll more ts = [] ∨ m.iterations + (m.startedByAll more ts).length ≤ limit) := by
  induction ts generalizing m with
  | nil => exact ⟨nofun, .inl rfl⟩
  | cons t ts ih =>
    obtain ⟨hends, hcounts⟩ := t.visit_counts hmore hlimit
    obtain ⟨hvisits, hstarted⟩ := ih hcounts.limit_eq
    have hle := hcounts.le_count
    have hge := hcounts.count_le
    have hstep : (t.visit more m).machine.iterations ≤ max m.iterations limit + 1 := by
      rcases hcounts.within with hnone | hwithin
      · rw [hnone, List.length_nil] at hge; omega
      · omega
    constructor
    · intro v hv
      rw [List.length_cons]
      rcases List.mem_cons.1 hv with rfl | hv
      · exact ⟨hends, by omega⟩
      · obtain ⟨hend, hcount⟩ := hvisits v hv
        exact ⟨hend, by omega⟩
    · rw [MachineOn.startedByAll]
      rcases hstarted with hnone | hwithin
      · rw [hnone, List.append_nil]; exact hcounts.within
      · rw [List.length_append]; exact .inr (by omega)

/-- Under an iteration limit the visits of all templates end, each of them whatever became of the
others: from some number of rounds on, allowing more makes no difference and no visit gives up.
Together they start no more body executions than the limit, and the count of iterations never
needs more than 64 bits. -/
theorem visits_end_within_limit (sink : σ) (context : Context) (limit : Nat) (ts : List Template)
    (hlimit : context.maxLoopIterations = some limit) (hroom : limit + ts.length < 2 ^ 64) :
    ∃ enough, ∀ more, enough ≤ more →
      (Machine.start sink context).visitAll more ts =
        (Machine.start sink context).visitAll enough ts ∧
      (∀ v ∈ (Machine.start sink context).visitAll more ts,
        v.halt ≠ some .outOfRounds ∧ v.machine.iterations < 2 ^ 64) ∧
      ((Machine.start sink context).startedByAll more ts).length ≤ limit := by
  refine ⟨limit + 1, fun more hmore => ?_⟩
  have hstart : (Machine.start sink context).context.maxLoopIterations = some limit := hlimit
  have hzero : (Machine.start sink context).iterations = 0 := rfl
  obtain ⟨hvisits, hstarted⟩ := MachineOn.visitAll_counts hmore ts hstart
  rw [hzero] at hvisits hstarted
  refine ⟨MachineOn.visitAll_of_lt hmore ts hstart, ?_, ?_⟩
  · intro v hv
    obtain ⟨hend, hcount⟩ := hvisits v hv
    exact ⟨hend, by omega⟩
  · rcases hstarted with hnone | hwithin
    · rw [hnone]; exact Nat.zero_le _
    · omega

/-- Counts up to infinity in doubles, where adding one soon changes nothing, around a loop over
the same name. -/
def endlessTemplate : Template :=
  [.loop ⟨"x", .integer 1, .double (.infinity false), some (.double .one)⟩
    [.loop ⟨"x", .var "x", .double (.infinity false), none⟩ [.echo [.var "x"]]]]

def fiveIterations : Context := { Context.default with maxLoopIterations := some 5 }

theorem visits_end_within_limit_endless :
    fiveIterations.maxLoopIterations = some 5 ∧
    5 + [endlessTemplate, endlessTemplate].length < 2 ^ 64 ∧
    ∃ enough, ∀ more, enough ≤ more →
      (Machine.start Sink.unbounded fiveIterations).visitAll more
          [endlessTemplate, endlessTemplate] =
        (Machine.start Sink.unbounded fiveIterations).visitAll enough
          [endlessTemplate, endlessTemplate] ∧
      (∀ v ∈ (Machine.start Sink.unbounded fiveIterations).visitAll more
          [endlessTemplate, endlessTemplate],
        v.halt ≠ some .outOfRounds ∧ v.machine.iterations < 2 ^ 64) ∧
      ((Machine.start Sink.unbounded fiveIterations).startedByAll more
          [endlessTemplate, endlessTemplate]).length ≤ 5 :=
  ⟨rfl, by decide, visits_end_within_limit Sink.unbounded fiveIterations 5 _ rfl (by decide)⟩

end TagTemplate
