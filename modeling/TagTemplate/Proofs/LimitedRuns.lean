import TagTemplate.Proofs.Comparison
import TagTemplate.Render

/-! An iteration limit shows in a run only by stopping it. Up to the limit the run does what it does
without one; where the count goes past the limit it halts, with the output written so far. -/

namespace TagTemplate

def Context.withLimit (c : Context) (limit : Option Nat) : Context :=
  { c with maxLoopIterations := limit }

def MachineOn.withLimit {σ : Type} (m : MachineOn σ) (limit : Option Nat) : MachineOn σ :=
  { m with context := m.context.withLimit limit }

theorem Sink.write_written (sink : Sink) (s : String) :
    ∃ more, (sink.write s).2.written = sink.written ++ more := by
  unfold Sink.write
  split
  · exact ⟨s, rfl⟩
  · split
    · exact ⟨s, rfl⟩
    · exact ⟨_, rfl⟩

/-- Output goes on from where it was. -/
theorem Exec.write_written (s : String) (m : Machine) :
    ∃ more, (finalState (Exec.write s m)).sink.written = m.sink.written ++ more := by
  obtain ⟨more, hmore⟩ := m.sink.write_written s
  have hwrite : (finalState (Exec.write s m)).sink = (m.sink.write s).2 := by
    unfold Exec.write
    split <;> (rename_i hresult; exact congrArg Prod.snd hresult.symm)
  exact ⟨more, by rw [hwrite, hmore]⟩

/-- A machine without a limit, and the same machine with one that it has not passed. -/
structure WithinLimit (limit : Nat) (m n : Machine) : Prop where
  unlimited : m.context.maxLoopIterations = none
  count_le : m.iterations ≤ limit
  sink : n.sink = m.sink
  context : n.context = m.context.withLimit (some limit)
  iterations : n.iterations = m.iterations

theorem WithinLimit.eq_withLimit {limit : Nat} {m n : Machine} (h : WithinLimit limit m n)
    (hbindings : n.bindings = m.bindings) :
    n = m.withLimit (some limit) ∧ m = n.withLimit none := by
  obtain ⟨hnone, -, hsink, hcontext, hcount⟩ := h
  obtain ⟨sink, context, bindings, count⟩ := n
  cases hsink; cases hcontext; cases hbindings; cases hcount
  refine ⟨rfl, ?_⟩
  simp only [MachineOn.withLimit, Context.withLimit]
  rw [← hnone]

/-- The second machine has stopped at the limit, and the first one has gone past it. -/
structure PastLimit (limit : Nat) (m : Machine) (h : Halt) (n : Machine) : Prop where
  count : limit < m.iterations
  halt : h = .fault (.iterationLimit limit)
  written : ∃ more, m.sink.written = n.sink.written ++ more

theorem hidden_withLimit (limit : Nat) : Context.Hidden (fun _ => True) fun c d =>
    c.maxLoopIterations = none ∧ d = c.withLimit (some limit) where
  parameters _ h _ := by rw [h.2]; rfl
  persistent _ h _ := by rw [h.2]; rfl
  temporary _ h _ := by rw [h.2]; rfl
  setMimeType _ h _ := ⟨h.1, by rw [h.2]; rfl⟩
  setPersistent _ h _ _ := ⟨h.1, by rw [h.2]; rfl⟩
  setTemporary _ h _ _ := ⟨h.1, by rw [h.2]; rfl⟩
  removePersistent _ h _ := ⟨h.1, by rw [h.2]; rfl⟩
  removeTemporary _ h _ := ⟨h.1, by rw [h.2]; rfl⟩

/-- A run without a limit beside the same run with one. -/
def limiting (limit : Nat) : Comparison Sink Sink where
  same := WithinLimit limit
  alike := Eq
  ahead := PastLimit limit
  contexts c d := c.maxLoopIterations = none ∧ d = c.withLimit (some limit)
  calls _ := True
  hidden := hidden_withLimit limit
  same_contexts h := ⟨h.unlimited, h.context⟩
  same_with h _ _ hcd _ _ := ⟨hcd.1, h.count_le, h.sink, hcd.2, h.iterations⟩
  ahead_with h _ _ _ := ⟨h.count, h.halt, h.written⟩
  alike_refl _ := rfl
  write s := by
    constructor
    · intro m n h
      unfold Exec.write
      rw [h.sink]
      split
      · exact .ok ⟨h.unlimited, h.count_le, rfl, h.context, h.iterations⟩
      · exact .error rfl ⟨h.unlimited, h.count_le, rfl, h.context, h.iterations⟩
    · intro e n m h
      rw [ends_iff_finalState]
      have hcount : (finalState (Exec.write s m)).iterations = m.iterations :=
        congrArg (·.2.1) ((Exec.keeps_write s).finalState m)
      obtain ⟨more, hmore⟩ := h.written
      obtain ⟨added, hadded⟩ := Exec.write_written s m
      refine ⟨by rw [hcount]; exact h.count, h.halt, more ++ added, ?_⟩
      rw [hadded, hmore, String.append_assoc]
  count := by
    constructor
    · intro m n h
      have hlimit : n.context.maxLoopIterations = some limit := by rw [h.context]; rfl
      rw [Exec.countIteration_unlimited h.unlimited, Exec.countIteration_limited hlimit,
        h.iterations]
      by_cases hle : limit ≤ m.iterations
      · rw [if_pos hle]
        exact .stopped ⟨Nat.lt_succ_of_le hle, rfl, "", by simp [Exec.counted, h.sink, finalState]⟩
      · rw [if_neg hle]
        exact .ok ⟨h.unlimited, Nat.lt_of_not_le hle, h.sink, h.context,
          congrArg Nat.succ h.iterations⟩
    · intro e n m h
      refine (Exec.ends_countIteration m).imp ?_ ?_
      · intro _ _ h
        obtain ⟨rfl, -⟩ := h
        exact ⟨Nat.lt_succ_of_lt h.count, h.halt, h.written⟩
      · intro _ _ h
        obtain ⟨rfl, -⟩ := h
        exact ⟨Nat.lt_succ_of_lt h.count, h.halt, h.written⟩

/-- The two visits of one template agree up to the limit, and the limited one has stopped there if
the other one has gone past it. -/
theorem visits_limited (sink : Sink) (context : Context) (limit : Nat) (t : Template) (more : Nat) :
    let v := t.visit more (Machine.start sink (context.withLimit none))
    let w := t.visit more (Machine.start sink (context.withLimit (some limit)))
    (v.machine.iterations ≤ limit ∧ w = ⟨v.halt, v.machine.withLimit (some limit)⟩ ∧
        v = ⟨w.halt, w.machine.withLimit none⟩) ∨
      (limit < v.machine.iterations ∧ w.halt = some (.fault (.iterationLimit limit)) ∧
        ∃ rest, v.machine.sink.written = w.machine.sink.written ++ rest) := by
  intro v w
  have hstart : WithinLimit limit (Machine.start sink (context.withLimit none))
      (Machine.start sink (context.withLimit (some limit))) :=
    ⟨rfl, Nat.zero_le _, rfl, rfl, rfl⟩
  rcases (limiting limit).visits_self hstart rfl (fun _ _ => trivial) more with
    ⟨hsame, hbound, hbound', hhalt⟩ | ⟨e, he, hpast⟩
  · obtain ⟨hw, hv⟩ := hsame.eq_withLimit (hbound'.trans hbound.symm)
    have hhalts : w.halt = v.halt := eq_of_rel_eq hhalt
    refine .inl ⟨hsame.count_le, ?_, ?_⟩
    · show Visit.mk w.halt w.machine = _
      rw [hhalts, hw]
    · show Visit.mk v.halt v.machine = _
      rw [hhalts, hv]
  · exact .inr ⟨hpast.count, he.trans (congrArg some hpast.halt), hpast.written⟩

/-- A limit on the iterations only stops a run. If the run without a limit ends, then the run with
one ends in the same way, but for the limit in its context, as long as the count stays within the
limit; where the count goes past it, that run fails for it, with a part of the output. And a run
that does not fail for its limit is the run without one. -/
theorem limit_only_stops (sink : Sink) (context : Context) (limit : Nat) (t : Template) :
    let free := Machine.start sink (context.withLimit none)
    let limited := Machine.start sink (context.withLimit (some limit))
    (∀ v, t.EndsAs free v →
      (v.machine.iterations ≤ limit →
        t.EndsAs limited ⟨v.halt, v.machine.withLimit (some limit)⟩) ∧
      (limit < v.machine.iterations →
        ∃ w, t.EndsAs limited w ∧ w.halt = some (.fault (.iterationLimit limit)) ∧
          ∃ rest, v.machine.sink.written = w.machine.sink.written ++ rest)) ∧
    ∀ w, t.EndsAs limited w → w.halt ≠ some (.fault (.iterationLimit limit)) →
      t.EndsAs free ⟨w.halt, w.machine.withLimit none⟩ := by
  intro free limited
  constructor
  · intro v hv
    obtain ⟨hends, more, rfl⟩ := Template.endsAs_iff.1 hv
    rcases visits_limited sink context limit t more with
      ⟨hle, hw, -⟩ | ⟨hlt, hhalt, hwritten⟩
    · refine ⟨fun _ => Template.endsAs_iff.2 ⟨hends, more, hw⟩, fun hlt => ?_⟩
      exact absurd hle (Nat.not_le_of_lt hlt)
    · refine ⟨fun hle => absurd hle (Nat.not_le_of_lt hlt), fun _ => ?_⟩
      refine ⟨_, Template.endsAs_iff.2 ⟨?_, more, rfl⟩, hhalt, hwritten⟩
      rw [hhalt]
      exact nofun
  · intro w hw hhalt
    obtain ⟨hends, more, rfl⟩ := Template.endsAs_iff.1 hw
    rcases visits_limited sink context limit t more with ⟨-, -, hv⟩ | ⟨-, hlimit, -⟩
    · exact Template.endsAs_iff.2 ⟨hends, more, hv⟩
    · exact absurd hlimit hhalt

end TagTemplate
