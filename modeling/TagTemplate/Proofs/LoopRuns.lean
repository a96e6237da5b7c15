import TagTemplate.Proofs.History

/-! The executions of loops in a run, at all depths, one by one. Each is known by the machines on
which it looks at its variable, which are those on which the variable has just got a value, and by
those on which it starts its body. -/

namespace TagTemplate

variable {σ : Type}

/-- One execution of a loop. -/
structure LoopRun (σ : Type) where
  head : LoopHead
  /-- Where it begins, and after each step of the variable. -/
  looks : List (MachineOn σ)
  /-- Where it starts the body. -/
  entries : List (MachineOn σ)

namespace Exec

/-- One round, unless the variable has passed the end; says whether the loop goes on. -/
def oneRound (name : String) (r : Bounds) (body : Exec σ Unit) : Exec σ Bool := do
  match ← nextRound name r with
  | none => pure false
  | some _ =>
    body
    advance name r

def looks (name : String) (r : Bounds) (body : Exec σ Unit) :
    Nat → MachineOn σ → List (MachineOn σ)
  | 0, m => [m]
  | more + 1, m => m ::
    match oneRound name r body m with
    | .ok true m' => looks name r body more m'
    | _ => []

def entries (name : String) (r : Bounds) (body : Exec σ Unit) :
    Nat → MachineOn σ → List (MachineOn σ)
  | 0, _ => []
  | more + 1, m =>
    match nextRound name r m with
    | .ok (some _) m₁ => m₁ ::
      match oneRound name r body m with
      | .ok true m' => entries name r body more m'
      | _ => []
    | _ => []

/-- What a loop executes: itself, and the loops inside its body. -/
def loopRuns (limit : Nat) (head : LoopHead) (body : Exec σ Unit)
    (inside : MachineOn σ → List (LoopRun σ)) (m : MachineOn σ) : List (LoopRun σ) :=
  match bounds m.bindings head with
  | .ok r =>
    let start := { m with bindings := m.bindings.bind head.name (.number r.start) }
    let entries := entries head.name r body limit start
    ⟨head, looks head.name r body limit start, entries⟩ :: entries.flatMap inside
  | .error _ => []

/-! ## The rounds of one loop -/

section

variable {name : String} {r : Bounds} {body : Exec σ Unit} {m m₁ : MachineOn σ}

theorem oneRound_of_some {v : Value} (h : nextRound name r m = .ok (some v) m₁) :
    oneRound name r body m = (do body; advance name r : Exec σ Bool) m₁ := by
  unfold oneRound
  rw [bind_of_ok h]

/-- A loop goes on after a round that it started, ran and could step from. -/
theorem oneRound_again {m' : MachineOn σ} (h : oneRound name r body m = .ok true m') :
    ∃ v m₁ m₂, nextRound name r m = .ok (some v) m₁ ∧ body m₁ = .ok () m₂ ∧
      advance name r m₂ = .ok true m' := by
  obtain ⟨next, m₁, hnext, h⟩ := ok_of_bind h
  cases next with
  | none => cases h
  | some v =>
    obtain ⟨⟨⟩, m₂, hbody, hagain⟩ := ok_of_bind h
    exact ⟨v, m₁, m₂, hnext, hbody, hagain⟩

theorem rounds_succ (more : Nat) : rounds name r body (more + 1) =
    (do if ← oneRound name r body then rounds name r body more) := by
  unfold oneRound
  rw [rounds, bind_assoc]
  refine bind_congr fun next => ?_
  cases next with
  | none => rfl
  | some v => exact (bind_assoc _ _ _).symm

/-- What every round keeps after which the loop goes on holds wherever it looks at its variable. -/
theorem forall_looks {p : MachineOn σ → Prop}
    (hround : ∀ {m m'}, p m → oneRound name r body m = .ok true m' → p m') (more : Nat) (h : p m) :
    ∀ m' ∈ looks name r body more m, p m' := by
  induction more generalizing m with
  | zero => exact fun m' hm' => List.mem_singleton.1 hm' ▸ h
  | succ more ih =>
    intro m' hmem
    rw [looks] at hmem
    rcases List.mem_cons.1 hmem with rfl | hmem
    · exact h
    · split at hmem
      · rename_i m₁ hagain
        exact ih (hround h hagain) m' hmem
      · cases hmem

/-- And what follows from it where a round is started holds wherever the body is started. -/
theorem forall_entries {p q : MachineOn σ → Prop}
    (hround : ∀ {m m'}, p m → oneRound name r body m = .ok true m' → p m')
    (hnext : ∀ {m m₁ v}, p m → nextRound name r m = .ok (some v) m₁ → q m₁) (more : Nat)
    (h : p m) : ∀ m' ∈ entries name r body more m, q m' := by
  induction more generalizing m with
  | zero => exact fun _ hmem => absurd hmem List.not_mem_nil
  | succ more ih =>
    intro m' hmem
    rw [entries] at hmem
    split at hmem
    · rename_i v m₁ hstarted
      rcases List.mem_cons.1 hmem with rfl | hmem
      · exact hnext h hstarted
      · split at hmem
        · rename_i m₂ hagain
          exact ih (hround h hagain) m' hmem
        · cases hmem
    · cases hmem

end

/-- The rounds that are started are the bodies that are entered, with what each of them starts. -/
theorem length_startedRounds (head : LoopHead) (r : Bounds) (body : Exec σ Unit)
    (inside : MachineOn σ → List Round) (more : Nat) (m : MachineOn σ) :
    (startedRounds head r body inside more m).length =
      (entries head.name r body more m).length +
        ((entries head.name r body more m).flatMap inside).length := by
  induction more generalizing m with
  | zero => rfl
  | succ more ih =>
    rw [startedRounds, entries]
    cases hnext : nextRound head.name r m with
    | error h m₁ => rw [startedAfter_error hnext]; rfl
    | ok next m₁ =>
      rw [startedAfter_ok hnext]
      cases next with
      | none => rfl
      | some v =>
        dsimp only
        rw [oneRound_of_some hnext]
        cases hbody : body m₁ with
        | error h m₂ => rw [startedAfter_error hbody, bind_of_error hbody]; simp [Nat.add_comm]
        | ok u m₂ =>
          rw [startedAfter_ok hbody, bind_of_ok hbody]
          cases hagain : advance head.name r m₂ with
          | error h m₃ => rw [startedAfter_error hagain]; simp [Nat.add_comm]
          | ok again m₃ =>
            rw [startedAfter_ok hagain]
            cases again with
            | false => simp [Nat.add_comm]
            | true =>
              simp only [List.length_cons, List.length_append, if_true, ih, List.flatMap_cons]
              omega

end Exec

theorem length_flatMap_congr {α β γ : Type} {f : α → List β} {g : α → List γ}
    (h : ∀ a, (f a).length = (g a).length) (as : List α) :
    (as.flatMap f).length = (as.flatMap g).length := by
  induction as with
  | nil => rfl
  | cons a as ih =>
    rw [List.flatMap_cons, List.flatMap_cons, List.length_append, List.length_append, h, ih]

/-! ## All loops -/

variable [Writer σ]

mutual

def Node.loopRuns (limit : Nat) : Node → MachineOn σ → List (LoopRun σ)
  | .text _ => fun _ => []
  | .echo _ => fun _ => []
  | .loop head body =>
    Exec.loopRuns limit head (Template.run limit body) (Template.loopRuns limit body)

/-- All executions of loops whose bounds evaluate. -/
def Template.loopRuns (limit : Nat) : List Node → MachineOn σ → List (LoopRun σ)
  | [] => fun _ => []
  | n :: ns => fun m => n.loopRuns limit m ++
    match n.run limit m with
    | .ok () m' => Template.loopRuns limit ns m'
    | .error _ _ => []

end

mutual

theorem Node.length_started (limit : Nat) : ∀ (n : Node) (m : MachineOn σ),
    (n.started limit m).length = ((n.loopRuns limit m).flatMap LoopRun.entries).length
  | .text _, _ => rfl
  | .echo _, _ => rfl
  | .loop head body, m => by
    simp only [Node.started, Exec.startedLoop, Node.loopRuns, Exec.loopRuns]
    cases Exec.bounds m.bindings head with
    | error e => rfl
    | ok r =>
      dsimp only
      rw [Exec.length_startedRounds, List.flatMap_cons, List.length_append, List.flatMap_assoc]
      rw [length_flatMap_congr (Template.length_started limit body)]

/-- The executions of loops are all that start rounds. -/
theorem Template.length_started (limit : Nat) : ∀ (ns : List Node) (m : MachineOn σ),
    (Template.started limit ns m).length =
      ((Template.loopRuns limit ns m).flatMap LoopRun.entries).length
  | [], _ => rfl
  | n :: ns, m => by
    rw [Template.started, Template.loopRuns, List.length_append, List.flatMap_append,
      List.length_append, Node.length_started limit n m]
    unfold Exec.startedAfter
    cases n.run limit m with
    | ok u m' => rw [← Template.length_started limit ns m']
    | error h m' => rfl

end

end TagTemplate
