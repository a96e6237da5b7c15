import TagTemplate.Proofs.EnoughRounds

/-! The body executions that a run starts, one after the other, at all depths. They are read off
the run itself: a round is started when the test of its loop and the count let it pass, also when
its body then fails. -/

namespace TagTemplate

variable {σ : Type} {α : Type}

/-- One execution of the body of a loop, with the value that the variable has when it starts. -/
structure Round where
  head : LoopHead
  bounds : Exec.Bounds
  value : Value

namespace Exec

/-- What is started after a computation, which is nothing if it fails. -/
def startedAfter (act : Exec σ α) (next : α → MachineOn σ → List Round) (m : MachineOn σ) :
    List Round :=
  match act m with
  | .ok a m' => next a m'
  | .error _ _ => []

theorem startedAfter_ok {act : Exec σ α} {next : α → MachineOn σ → List Round} {m m' : MachineOn σ}
    {a : α} (h : act m = .ok a m') : startedAfter act next m = next a m' := by
  unfold startedAfter; rw [h]

theorem startedAfter_error {act : Exec σ α} {next : α → MachineOn σ → List Round}
    {m m' : MachineOn σ} {h : Halt} (hact : act m = .error h m') : startedAfter act next m = [] := by
  unfold startedAfter; rw [hact]

/-- The rounds of one loop, each followed by those inside its body. -/
def startedRounds (head : LoopHead) (r : Bounds) (body : Exec σ Unit)
    (inside : MachineOn σ → List Round) : Nat → MachineOn σ → List Round
  | 0 => fun _ => []
  | more + 1 => startedAfter (nextRound head.name r) fun next m =>
    match next with
    | none => []
    | some value =>
      ⟨head, r, value⟩ :: (inside m ++ startedAfter body (fun _ =>
        startedAfter (advance head.name r) fun again m =>
          if again then startedRounds head r body inside more m else []) m)

def startedLoop (limit : Nat) (head : LoopHead) (body : Exec σ Unit)
    (inside : MachineOn σ → List Round) (m : MachineOn σ) : List Round :=
  match bounds m.bindings head with
  | .ok r => startedRounds head r body inside limit
      { m with bindings := m.bindings.bind head.name (.number r.start) }
  | .error _ => []

end Exec

variable [Writer σ]

mutual

def Node.started (limit : Nat) : Node → MachineOn σ → List Round
  | .text _ => fun _ => []
  | .echo _ => fun _ => []
  | .loop head body =>
    Exec.startedLoop limit head (Template.run limit body) (Template.started limit body)

/-- The body executions that a run of the nodes starts, in order. -/
def Template.started (limit : Nat) : List Node → MachineOn σ → List Round
  | [] => fun _ => []
  | n :: ns => fun m => n.started limit m ++
      Exec.startedAfter (n.run limit) (fun _ => Template.started limit ns) m

end

/-! ## Several templates on one machine -/

/-- How a run went: what stopped it, if anything did, and the machine that it left. -/
structure Visit (σ : Type) where
  halt : Option Halt
  machine : MachineOn σ

def Template.visit (limit : Nat) (t : Template) (m : MachineOn σ) : Visit σ :=
  match Template.run limit t m with
  | .ok () m' => ⟨none, m'⟩
  | .error h m' => ⟨some h, m'⟩

/-- So the run of a template ends from a machine, if it ends at all: from some number of rounds on,
allowing more makes no difference, and the run does not give up. -/
def Template.EndsAs (t : Template) (m : MachineOn σ) (v : Visit σ) : Prop :=
  v.halt ≠ some .outOfRounds ∧ ∃ enough, ∀ more, enough ≤ more → t.visit more m = v

/-- A run that did not give up has ended. -/
theorem Template.endsAs_iff {t : Template} {m : MachineOn σ} {v : Visit σ} :
    t.EndsAs m v ↔ v.halt ≠ some .outOfRounds ∧ ∃ limit, t.visit limit m = v := by
  refine and_congr_right fun hends => ⟨?_, ?_⟩
  · intro h
    obtain ⟨enough, henough⟩ := h
    exact ⟨enough, henough enough (Nat.le_refl _)⟩
  · intro h
    obtain ⟨limit, rfl⟩ := h
    refine ⟨limit, fun more hmore => ?_⟩
    unfold visit at hends ⊢
    rw [run_of_le hmore]
    intro m' hrun
    rw [hrun] at hends
    exact hends rfl

/-- Runs templates one after the other, each on the machine that the one before it has left, also
when that one failed. -/
def MachineOn.visitAll (limit : Nat) (m : MachineOn σ) : List Template → List (Visit σ)
  | [] => []
  | t :: ts => t.visit limit m :: (t.visit limit m).machine.visitAll limit ts

/-- All the body executions that they start. -/
def MachineOn.startedByAll (limit : Nat) (m : MachineOn σ) : List Template → List Round
  | [] => []
  | t :: ts => Template.started limit t m ++ (t.visit limit m).machine.startedByAll limit ts

end TagTemplate
