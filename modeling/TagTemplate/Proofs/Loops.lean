import TagTemplate.Proofs.Evaluation

/-! The steps of a loop, each with all that it can do, and the induction over trees that every
statement about runs goes through. -/

namespace TagTemplate

variable {σ τ : Type}

namespace Exec

/-! ## One round -/

/-- The machine with one more iteration counted. -/
def counted (m : MachineOn σ) : MachineOn σ := { m with iterations := m.iterations + 1 }

/-- The limit, if there is one, admits another iteration. -/
def MayCount (m : MachineOn σ) : Prop :=
  ∀ limit, m.context.maxLoopIterations = some limit → m.iterations < limit

theorem ends_countIteration (m : MachineOn σ) :
    Ends countIteration m (fun _ m' => m' = counted m ∧ MayCount m) fun h m' =>
      m' = counted m ∧ ∃ limit, m.context.maxLoopIterations = some limit ∧ limit ≤ m.iterations ∧
        h = .fault (.iterationLimit limit) := by
  unfold countIteration
  simp only [Ends.bind_iff, Ends.get_iff, Ends.set_iff]
  cases hlimit : m.context.maxLoopIterations with
  | none => exact ⟨rfl, fun limit h => by rw [hlimit] at h; cases h⟩
  | some limit =>
    dsimp only
    split
    · rename_i hlt
      exact ⟨rfl, limit, rfl, Nat.le_of_lt_succ hlt, rfl⟩
    · rename_i hle
      refine ⟨rfl, fun limit' h => ?_⟩
      rw [hlimit] at h
      cases h
      exact Nat.le_of_not_lt hle

theorem ends_peek {m : MachineOn σ} {name : String} {v : Value}
    (hv : m.bindings.find? name = some v) {ok : Value → MachineOn σ → Prop}
    {failed : Halt → MachineOn σ → Prop} : Ends (peek name) m ok failed ↔ ok v m := by
  unfold peek
  simp only [Ends.bind_iff, Ends.get_iff, Bindings.peek, hv, ofExcept, Ends.pure_iff]

theorem ends_ofExcept {α : Type} {x : Except Fault α} {m : MachineOn σ}
    {ok : α → MachineOn σ → Prop} {failed : Halt → MachineOn σ → Prop} :
    Ends (ofExcept x) m ok failed ↔
      (∀ a, x = .ok a → ok a m) ∧ ∀ e, x = .error e → failed (.fault e) m := by
  cases x with
  | ok a => simp [ofExcept]
  | error e => simp [ofExcept]

/-- Before a round nothing changes but the count, and this one only up to the limit. -/
theorem ends_nextRound {m : MachineOn σ} {name : String} {v : Value} (r : Bounds)
    (hv : m.bindings.find? name = some v) :
    Ends (nextRound name r) m
      (fun next m' => next = none ∧ m' = m ∨ next = some v ∧ m' = counted m ∧ MayCount m)
      fun h m' => m' = m ∧ (∃ text, h = .fault (.notANumber text)) ∨
        m' = counted m ∧ ∃ limit, m.context.maxLoopIterations = some limit ∧
          limit ≤ m.iterations ∧ h = .fault (.iterationLimit limit) := by
  unfold nextRound
  rw [Ends.bind_iff, ends_peek hv, Ends.bind_iff, ends_ofExcept]
  constructor
  · intro order _
    split
    · exact .inl ⟨rfl, rfl⟩
    · refine (ends_countIteration m).bind ?_ |>.imp (fun _ _ => id) fun _ _ h => .inr h
      rintro _ m' ⟨rfl, hmay⟩
      exact .inr ⟨rfl, rfl, hmay⟩
  · intro e he
    obtain ⟨text, rfl⟩ := Value.raises_compare _ _ _ he
    exact .inl ⟨rfl, text, rfl⟩

/-- After a round the variable moves on, or it stays where it was and the loop is over. -/
theorem ends_advance {m : MachineOn σ} {name : String} {v : Value} (r : Bounds)
    (hv : m.bindings.find? name = some v) :
    Ends (advance name r) m
      (fun again m' =>
        (again = true ∧ ∃ next, v.apply .add (.number r.step) = .ok next ∧
          m' = { m with bindings := m.bindings.rebind name (.number next) }) ∨
        (again = false ∧ m' = m ∧ ∃ symbol n,
          v.apply .add (.number r.step) = .error (.overflow symbol) ∧ r.stop = .integer n))
      fun h m' => m' = m ∧ ∃ e, v.apply .add (.number r.step) = .error e ∧ h = .fault e := by
  unfold advance
  rw [Ends.bind_iff, ends_peek hv]
  split
  · rename_i next hnext
    exact .inl ⟨rfl, next, hnext, rfl⟩
  · rename_i symbol n hover hstop
    exact .inr ⟨rfl, rfl, symbol, n, hover, hstop⟩
  · rename_i e he _
    exact ⟨rfl, e, he, rfl⟩

/-! ## A whole loop -/

/-- A loop that cannot begin has a bound that does not evaluate, or a step of zero. -/
theorem raises_bounds (b : Bindings) (head : LoopHead) :
    Raises (fun e => e = .zeroStep head.name ∨ e.ofLoop = false) (bounds b head) := by
  have hbound (e : Element) : Raises (fun e => e = .zeroStep head.name ∨ e.ofLoop = false)
      (e.bound b) := (e.plain_bound b).imp fun _ => .inr
  have hstep : Raises (fun e => e = .zeroStep head.name ∨ e.ofLoop = false) (stepOf b head) := by
    unfold stepOf; split
    · exact hbound _
    · exact Raises.ok _
  refine (hbound _).bind fun start => (hbound _).bind fun stop => hstep.bind fun step => ?_
  refine ((Value.raises_compare _ _).imp ?_).bind fun order => ?_
  · rintro _ ⟨text, rfl⟩
    exact .inr rfl
  · cases order with
    | eq => exact Raises.error (.inl rfl)
    | lt => exact Raises.ok _
    | gt => exact Raises.ok _

/-- If the work leaves one value of the name on top of what was there before, the bindings
afterwards are those from before. -/
theorem ends_withBinding {name : String} {v : Value} {body : Exec σ Unit} {m : MachineOn σ}
    {ok : MachineOn σ → Prop} {failed : Halt → MachineOn σ → Prop}
    (h : Ends body { m with bindings := m.bindings.bind name v }
      (fun _ m' => (∃ w, m'.bindings = m.bindings.bind name w) ∧
        ok { m' with bindings := m.bindings })
      fun h m' => (∃ w, m'.bindings = m.bindings.bind name w) ∧
        failed h { m' with bindings := m.bindings }) :
    Ends (withBinding name v body) m (fun _ => ok) failed := by
  unfold Ends at h ⊢
  unfold withBinding
  cases hbody : body { m with bindings := m.bindings.bind name v } with
  | ok u m' =>
    rw [hbody] at h
    obtain ⟨⟨w, hw⟩, hok⟩ := h
    simp only [unbind, hw, Bindings.unbind_bind]
    exact hok
  | error halt m' =>
    rw [hbody] at h
    obtain ⟨⟨w, hw⟩, hfailed⟩ := h
    simp only [unbind, hw, Bindings.unbind_bind]
    exact hfailed

/-- A loop either does not begin, and then nothing has changed, or does its rounds with the
variable bound to the start. -/
theorem ends_loop {limit : Nat} {head : LoopHead} {body : Exec σ Unit} {m : MachineOn σ}
    {ok : MachineOn σ → Prop} {failed : Halt → MachineOn σ → Prop}
    (hbounds : ∀ e, bounds m.bindings head = .error e → failed (.fault e) m)
    (hrounds : ∀ r, bounds m.bindings head = .ok r →
      Ends (rounds head.name r body limit)
        { m with bindings := m.bindings.bind head.name (.number r.start) }
        (fun _ m' => (∃ w, m'.bindings = m.bindings.bind head.name w) ∧
          ok { m' with bindings := m.bindings })
        fun h m' => (∃ w, m'.bindings = m.bindings.bind head.name w) ∧
          failed h { m' with bindings := m.bindings }) :
    Ends (loop limit head body) m (fun _ => ok) failed := by
  unfold loop
  rw [Ends.bind_iff, Ends.get_iff, Ends.bind_iff, ends_ofExcept]
  exact ⟨fun r hr => ends_withBinding (hrounds r hr), hbounds⟩

/-! ## Trees -/

/-- A relation between computations that all the ways to build a run respect. -/
structure Compatible [Writer σ] [Writer τ] (limit limit' : Nat)
    (R : Exec σ Unit → Exec τ Unit → Prop) : Prop where
  write : ∀ s, R (write s) (write s)
  echo : ∀ elements, R (echo elements) (echo elements)
  done : R (pure ()) (pure ())
  next : ∀ {a b a' b'}, R a a' → R b b' → R (a >>= fun _ => b) (a' >>= fun _ => b')
  loop : ∀ {head body body'}, R body body' → R (loop limit head body) (loop limit' head body')

variable [Writer σ] [Writer τ] {limit limit' : Nat} {R : Exec σ Unit → Exec τ Unit → Prop}

mutual

theorem Compatible.node (h : Compatible limit limit' R) : ∀ n : Node, R (n.run limit) (n.run limit')
  | .text s => h.write s
  | .echo elements => h.echo elements
  | .loop _ body => h.loop (h.template body)

/-- What all the ways to build a run respect holds between the runs of a tree. -/
theorem Compatible.template (h : Compatible limit limit' R) :
    ∀ ns : List Node, R (Template.run limit ns) (Template.run limit' ns)
  | [] => h.done
  | n :: ns => h.next (h.node n) (h.template ns)

end

end Exec

end TagTemplate
