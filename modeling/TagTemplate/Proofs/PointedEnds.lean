import TagTemplate.Proofs.Counting
import TagTemplate.Render

/-! Ends of loops that are written with a point. A loop that counts in integers does the same rounds
for an integer end and for the double that is equal to it. What differs is how it ends where the
variable cannot step past the end: with the integer it is over, with the double that is a fault. -/

namespace TagTemplate

variable {σ : Type}

/-- The variable and the value that it has in the round. -/
def Round.binding (round : Round) : String × Value := (round.head.name, round.value)

namespace Exec

/-! ## Leaving the integers -/

/-- The first value past the end is none of the 32-bit integers. -/
def LeavesRange (start stop step : Int32) : Prop :=
  ∃ k : Nat, ¬Past stop.toInt step.toInt (start.toInt + k * step.toInt) ∧
    Number.int32? (start.toInt + (k + 1) * step.toInt) = none

namespace LeavesRange

variable {stop step v w : Int32}

theorem not_past (h : LeavesRange v stop step) : ¬Past stop.toInt step.toInt v.toInt := by
  obtain ⟨k, hpast, -⟩ := h
  have hbetween := between_of_not_past hpast
  unfold Past
  split
  · rename_i hneg
    rw [if_pos hneg] at hbetween
    omega
  · rename_i hpos
    rw [if_neg hpos] at hbetween
    omega

theorem of_none (hpast : ¬Past stop.toInt step.toInt v.toInt)
    (h : Number.int32? (v.toInt + step.toInt) = none) : LeavesRange v stop step :=
  ⟨0, by simpa using hpast, by simpa using h⟩

/-- A step within the range does not decide it. -/
theorem step_iff (hw : w.toInt = v.toInt + step.toInt) :
    LeavesRange v stop step ↔ LeavesRange w stop step := by
  have hshift (k : Int) :
      w.toInt + k * step.toInt = v.toInt + (k + 1) * step.toInt := by
    rw [hw, Int.add_mul, Int.one_mul, Int.add_assoc, Int.add_comm step.toInt]
  constructor
  · intro h
    obtain ⟨k, hk, hnone⟩ := h
    cases k with
    | zero =>
      rw [Nat.cast_zero, Int.zero_add, Int.one_mul, ← hw, int32?_toInt] at hnone
      cases hnone
    | succ k =>
      refine ⟨k, ?_, ?_⟩
      · rw [hshift]; exact hk
      · rw [hshift]; exact hnone
  · intro h
    obtain ⟨k, hk, hnone⟩ := h
    refine ⟨k + 1, ?_, ?_⟩
    · rw [hshift] at hk; exact hk
    · rw [hshift] at hnone; exact hnone

end LeavesRange

/-! ## The two loops -/

/-- An overflow takes the place of a good end. -/
def overflowing (r : EStateM.Result Halt (MachineOn σ) Unit) :
    EStateM.Result Halt (MachineOn σ) Unit :=
  match r with
  | .ok () m => .error (.fault (.overflow '+')) m
  | .error h m => .error h m

variable {name : String} {start stop step v : Int32} {b : Bindings} {body : Exec σ Unit}
  {m : MachineOn σ}

open Classical in
theorem rounds_pointed (hbody : Scoped body) (more : Nat)
    (hm : m.bindings = b.bind name (.integer v)) :
    rounds name (.counting start (.double (.ofInt stop.toInt)) step) body more m =
      if LeavesRange v stop step then
        overflowing (rounds name (.counting start (.integer stop) step) body more m)
      else rounds name (.counting start (.integer stop) step) body more m := by
  induction more generalizing m v with
  | zero => split <;> rfl
  | succ more ih =>
    rw [rounds_counting more (find?_of_bind hm) (Number.standsFor_double stop),
      rounds_counting more (find?_of_bind hm) (Number.standsFor_integer stop)]
    by_cases hpast : Past stop.toInt step.toInt v.toInt
    · rw [if_pos hpast, if_pos hpast, if_neg fun h => h.not_past hpast]
    · rw [if_neg hpast, if_neg hpast]
      cases hround : (countIteration >>= fun _ => body) m with
      | error h m₁ =>
        rw [bind_of_error hround, bind_of_error hround]
        split <;> rfl
      | ok u m₁ =>
        have hm₁ := (bindings_round hbody hround).trans hm
        rw [bind_of_ok hround, bind_of_ok hround]
        cases hw : Number.int32? (v.toInt + step.toInt) with
        | none =>
          rw [if_pos (.of_none hpast hw),
            bind_of_error (advance_counting_none (find?_of_bind hm₁) hw),
            bind_of_ok (advance_counting_none (find?_of_bind hm₁) hw)]
          rfl
        | some w =>
          have hsum := int32?_eq_some_iff.1 hw
          rw [bind_of_ok (advance_counting (find?_of_bind hm₁) hsum.symm),
            bind_of_ok (advance_counting (find?_of_bind hm₁) hsum.symm)]
          simp only [LeavesRange.step_iff hsum]
          exact ih (rebind_of_bind hm₁ _)

/-- Both start the same rounds, also where they end differently. -/
theorem startedRounds_pointed {head head' : LoopHead} (hname : head'.name = head.name)
    (hbody : Scoped body) (inside : MachineOn σ → List Round) (more : Nat)
    (hm : m.bindings = b.bind head.name (.integer v)) :
    (startedRounds head' (.counting start (.double (.ofInt stop.toInt)) step) body inside more
        m).map Round.binding =
      (startedRounds head (.counting start (.integer stop) step) body inside more m).map
        Round.binding := by
  induction more generalizing m v with
  | zero => rfl
  | succ more ih =>
    have hnext : nextRound head.name (.counting start (.double (.ofInt stop.toInt)) step) m =
        nextRound head.name (.counting start (.integer stop) step) m := by
      rw [nextRound_counting (find?_of_bind hm) (Number.standsFor_double stop),
        nextRound_counting (find?_of_bind hm) (Number.standsFor_integer stop)]
    rw [startedRounds, startedRounds, hname]
    cases hact : nextRound head.name (.counting start (.integer stop) step) m with
    | error h m₁ => rw [startedAfter_error (hnext.trans hact), startedAfter_error hact]
    | ok next m₁ =>
      rw [startedAfter_ok (hnext.trans hact), startedAfter_ok hact]
      cases next with
      | none => rfl
      | some value =>
        obtain ⟨-, hm₁⟩ :=
          not_past_of_nextRound (find?_of_bind hm) (Number.standsFor_integer stop) hact
        dsimp only
        cases hrun : body m₁ with
        | error h m₂ =>
          rw [startedAfter_error hrun, startedAfter_error hrun]
          simp [Round.binding, hname]
        | ok u m₂ =>
          have hm₂ := (((Ends.of_ok hrun).1 (hbody m₁)).trans hm₁).trans hm
          rw [startedAfter_ok hrun, startedAfter_ok hrun]
          cases hw : Number.int32? (v.toInt + step.toInt) with
          | none =>
            rw [startedAfter_error (advance_counting_none (find?_of_bind hm₂) hw),
              startedAfter_ok (advance_counting_none (find?_of_bind hm₂) hw)]
            simp [Round.binding, hname]
          | some w =>
            have hsum := int32?_eq_some_iff.1 hw
            rw [startedAfter_ok (advance_counting (find?_of_bind hm₂) hsum.symm),
              startedAfter_ok (advance_counting (find?_of_bind hm₂) hsum.symm)]
            have hm₃ : MachineOn.bindings
                { m₂ with bindings := m₂.bindings.rebind head.name (.integer w) } =
                  b.bind head.name (.integer w) := rebind_of_bind hm₂ _
            simp only [if_true, List.map_cons, List.map_append, ih hm₃, Round.binding, hname]

theorem mapState_overflowing (f : MachineOn σ → MachineOn σ)
    (r : EStateM.Result Halt (MachineOn σ) Unit) :
    mapState f (overflowing r) = overflowing (mapState f r) := by
  cases r <;> rfl

open Classical in
theorem loop_pointed (limit : Nat) {head : LoopHead} (hbody : Scoped body)
    (hstart : head.start.bound m.bindings = .ok (.integer start))
    (hstep : stepOf m.bindings head = .ok (.integer step)) (hne : step ≠ 0) :
    loop limit { head with stop := .double (.ofInt stop.toInt) } body m =
      if LeavesRange start stop step then
        overflowing (loop limit { head with stop := .integer stop } body m)
      else loop limit { head with stop := .integer stop } body m := by
  have hpointed : bounds m.bindings { head with stop := .double (.ofInt stop.toInt) } = .ok _ :=
    bounds_counting hstart rfl hstep hne
  have hwhole : bounds m.bindings { head with stop := .integer stop } = .ok _ :=
    bounds_counting hstart rfl hstep hne
  rw [loop_eq hbody hpointed, loop_eq hbody hwhole]
  have hrounds : rounds head.name (.counting start (.double (.ofInt stop.toInt)) step) body limit
      { m with bindings := m.bindings.bind head.name (.integer start) } = _ :=
    rounds_pointed hbody limit rfl
  by_cases hleaves : LeavesRange start stop step
  · rw [if_pos hleaves] at hrounds ⊢
    rw [← mapState_overflowing]
    exact congrArg _ hrounds
  · rw [if_neg hleaves] at hrounds ⊢
    exact congrArg _ hrounds

theorem startedLoop_pointed (limit : Nat) {head : LoopHead} (hbody : Scoped body)
    (inside : MachineOn σ → List Round)
    (hstart : head.start.bound m.bindings = .ok (.integer start))
    (hstep : stepOf m.bindings head = .ok (.integer step)) (hne : step ≠ 0) :
    (startedLoop limit { head with stop := .double (.ofInt stop.toInt) } body inside m).map
        Round.binding =
      (startedLoop limit { head with stop := .integer stop } body inside m).map Round.binding := by
  have hpointed : bounds m.bindings { head with stop := .double (.ofInt stop.toInt) } = .ok _ :=
    bounds_counting hstart rfl hstep hne
  have hwhole : bounds m.bindings { head with stop := .integer stop } = .ok _ :=
    bounds_counting hstart rfl hstep hne
  simp only [startedLoop, hpointed, hwhole]
  apply startedRounds_pointed
  · rfl
  · exact hbody
  · rfl

end Exec

variable [Writer σ]

/-- A loop with an integral end, written as an integer and written as a double. Both start the same
rounds for the same values of their variable. They also end the same way, unless the variable would
leave the 32-bit integers with the step that passes the end: then the loop with the double fails for
an overflow where the other one is over, with the same output, context and count. -/
theorem pointed_end (limit : Nat) {head : LoopHead} {start stop step : Int32} (body : List Node)
    {m : MachineOn σ} (hstart : head.start.bound m.bindings = .ok (.integer start))
    (hstep : Exec.stepOf m.bindings head = .ok (.integer step)) (hne : step ≠ 0) :
    let whole : Node := .loop { head with stop := .integer stop } body
    let pointed : Node := .loop { head with stop := .double (.ofInt stop.toInt) } body
    (pointed.started limit m).map Round.binding = (whole.started limit m).map Round.binding ∧
    (¬Exec.LeavesRange start stop step → pointed.run limit m = whole.run limit m) ∧
    (Exec.LeavesRange start stop step →
      pointed.run limit m = Exec.overflowing (whole.run limit m)) := by
  intro whole pointed
  have hbody := (Exec.compatible_scoped limit).template (σ := σ) body
  have hrun : pointed.run limit m = _ := Exec.loop_pointed limit hbody hstart hstep hne
  refine ⟨Exec.startedLoop_pointed limit hbody _ hstart hstep hne, fun hstays => ?_,
    fun hleaves => ?_⟩
  · rw [hrun, if_neg hstays]
    rfl
  · rw [hrun, if_pos hleaves]
    rfl

/-- A loop over the last two of the 32-bit integers. -/
def lastTwo (stop : Element) : LoopHead := ⟨"i", .integer 2147483646, stop, none⟩

theorem pointed_end_lastTwo :
    Exec.LeavesRange 2147483646 2147483647 1 ∧
    (Node.loop (lastTwo (.double (.ofInt (2147483647 : Int32).toInt))) [.text "x"]).run 3
        (Machine.start Sink.unbounded .default) =
      Exec.overflowing ((Node.loop (lastTwo (.integer 2147483647)) [.text "x"]).run 3
        (Machine.start Sink.unbounded .default)) := by
  have hleaves : Exec.LeavesRange 2147483646 2147483647 1 := ⟨1, by decide, by decide⟩
  have hstart : (lastTwo (.integer 0)).start.bound
      (Machine.start Sink.unbounded .default).bindings = .ok (.integer 2147483646) := rfl
  have hstep : Exec.stepOf (Machine.start Sink.unbounded .default).bindings
      (lastTwo (.integer 0)) = .ok (.integer 1) := rfl
  exact ⟨hleaves, (pointed_end 3 [.text "x"] hstart hstep (by decide)).2.2 hleaves⟩

/-- Both write the same, but only the loop with the integer comes to a good end. -/
theorem lastTwo_ends_differ :
    let whole := Template.visit 3 [.loop (lastTwo (.integer 2147483647)) [.text "x"]]
      (Machine.start Sink.unbounded .default)
    let pointed := Template.visit 3 [.loop (lastTwo (.double (.ofInt 2147483647))) [.text "x"]]
      (Machine.start Sink.unbounded .default)
    whole.machine.sink.written = "xx" ∧ pointed.machine.sink.written = "xx" ∧
    whole.halt = none ∧ pointed.halt = some (.fault (.overflow '+')) := by
  dsimp only
  decide +kernel

end TagTemplate
