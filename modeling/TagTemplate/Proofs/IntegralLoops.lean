import TagTemplate.Proofs.Counting
import TagTemplate.Proofs.LoopRuns
import TagTemplate.Render

/-! Loops whose bounds are no doubles end without any limit. All that is ever bound is an integer
then, so that a bound that is a variable is an integer as well; and every step of a variable brings
it nearer to an end that lies among the 32-bit integers. -/

namespace TagTemplate

/-! ## Templates without doubles for bounds -/

/-- Written as a double, or as a text that is read as one. -/
def Element.isDouble : Element → Bool
  | .double _ => true
  | .string s =>
    match (Value.text s).toNumber with
    | .ok (.double _) => true
    | _ => false
  | _ => false

def LoopHead.integral (head : LoopHead) : Bool :=
  !head.start.isDouble && !head.stop.isDouble && head.step.all (!·.isDouble)

mutual

def Node.integral : Node → Bool
  | .text _ => true
  | .echo _ => true
  | .loop head body => head.integral && Template.integral body

/-- No bound and no step of a loop is written as a double, at any depth. -/
def Template.integral : List Node → Bool
  | [] => true
  | n :: ns => n.integral && Template.integral ns

end

/-- A loop that begins has got a start, an end and a step. -/
theorem Exec.bounds_ok {b : Bindings} {head : LoopHead} {r : Bounds}
    (h : bounds b head = .ok r) : ∃ x y z, head.start.bound b = .ok x ∧
      head.stop.bound b = .ok y ∧ stepOf b head = .ok z := by
  obtain ⟨x, hstart, h⟩ := bind_eq_ok_iff.1 h
  obtain ⟨y, hstop, h⟩ := bind_eq_ok_iff.1 h
  obtain ⟨z, hstep, -⟩ := bind_eq_ok_iff.1 h
  exact ⟨x, y, z, hstart, hstop, hstep⟩

/-! ## What is bound -/

/-- All values of all names are so. -/
def Bindings.All (p : Value → Prop) (b : Bindings) : Prop := ∀ name, ∀ v ∈ b.stack name, p v

namespace Bindings.All

variable {p : Value → Prop} {b : Bindings}

theorem empty : Bindings.empty.All p := by
  intro name v hv
  simp [stack, Bindings.empty] at hv

theorem bind (h : b.All p) (name : String) {w : Value} (hw : p w) : (b.bind name w).All p := by
  intro key v hv
  unfold Bindings.bind at hv
  rw [stack_withStack] at hv
  split at hv
  · rcases List.mem_cons.1 hv with rfl | hv
    · exact hw
    · exact h name v hv
  · exact h key v hv

theorem lookup (h : b.All p) {name : String} {v : Value} (hv : b.lookup name = .ok v) : p v := by
  unfold Bindings.lookup find? at hv
  cases hstack : b.stack name with
  | nil => rw [hstack] at hv; cases hv
  | cons w rest =>
    rw [hstack] at hv
    cases hv
    exact h name _ (by rw [hstack]; exact List.mem_cons_self)

end Bindings.All

/-- All values of all names are integers. -/
def Bindings.Integral (b : Bindings) : Prop :=
  ∀ name, ∀ v ∈ b.stack name, ∃ n, v = .integer n

namespace Bindings.Integral

variable {b : Bindings}

theorem empty : Bindings.empty.Integral := All.empty

theorem bind (h : b.Integral) (name : String) (n : Int32) :
    (b.bind name (.integer n)).Integral := All.bind h name ⟨n, rfl⟩

theorem lookup (h : b.Integral) {name : String} {v : Value} (hv : b.lookup name = .ok v) :
    ∃ n, v = .integer n := All.lookup h hv

theorem bound (h : b.Integral) {e : Element} (he : e.isDouble = false) {x : Number}
    (hx : e.bound b = .ok x) : ∃ n, x = .integer n := by
  cases e with
  | integer n => cases hx; exact ⟨n, rfl⟩
  | double y => cases he
  | string s =>
    have hnumber : (Value.text s).toNumber = .ok x := hx
    simp only [Element.isDouble, hnumber] at he
    cases x with
    | integer n => exact ⟨n, rfl⟩
    | double y => cases he
  | var name =>
    have hvalue : (b.lookup name).bind Value.toNumber = .ok x := hx
    cases hv : b.lookup name with
    | error e => rw [hv] at hvalue; cases hvalue
    | ok v =>
      obtain ⟨n, rfl⟩ := h.lookup hv
      rw [hv] at hvalue
      cases hvalue
      exact ⟨n, rfl⟩
  | function name => cases hx
  | operator symbol => cases hx

theorem stepOf (h : b.Integral) {head : LoopHead} (hhead : head.step.all (!·.isDouble) = true)
    {x : Number} (hx : Exec.stepOf b head = .ok x) : ∃ n, x = .integer n := by
  unfold Exec.stepOf at hx
  split at hx
  · rename_i e hstep
    rw [hstep] at hhead
    exact h.bound (by simpa using hhead) hx
  · cases hx
    exact ⟨1, rfl⟩

/-- Such a loop counts in integers, if it begins at all. -/
theorem bounds (h : b.Integral) {head : LoopHead} (hhead : head.integral = true)
    {r : Exec.Bounds} (hr : Exec.bounds b head = .ok r) :
    ∃ start stop step : Int32, step ≠ 0 ∧ r = .counting start (.integer stop) step := by
  simp only [LoopHead.integral, Bool.and_eq_true, Bool.not_eq_true'] at hhead
  obtain ⟨⟨hdouble, hdouble'⟩, hall⟩ := hhead
  obtain ⟨x, y, z, hstart, hstop, hstep⟩ := Exec.bounds_ok hr
  obtain ⟨start, rfl⟩ := h.bound hdouble hstart
  obtain ⟨stop, rfl⟩ := h.bound hdouble' hstop
  obtain ⟨step, rfl⟩ := h.stepOf hall hstep
  by_cases hzero : step = 0
  · subst hzero
    simp only [Exec.bounds, hstart, hstop, hstep] at hr
    cases hr
  · rw [Exec.bounds_counting hstart hstop hstep hzero] at hr
    cases hr
    exact ⟨start, stop, step, hzero, rfl⟩

end Bindings.Integral

/-! ## The way to the end -/

namespace Exec

/-- The integers from a value of the variable to the end, in the direction of the step. -/
def remaining (stop step v : Int) : Nat :=
  if step < 0 then (v - stop + 1).toNat else (stop - v + 1).toNat

theorem remaining_pos {stop step v : Int} (h : ¬Past stop step v) : 0 < remaining stop step v := by
  unfold Past at h
  unfold remaining
  by_cases hneg : step < 0
  · rw [if_pos hneg] at h ⊢
    omega
  · rw [if_neg hneg] at h ⊢
    omega

/-- A step uses up at least one of them. -/
theorem remaining_lt {stop step v : Int} (hstep : step ≠ 0) (h : ¬Past stop step v) :
    remaining stop step (v + step) < remaining stop step v := by
  unfold Past at h
  unfold remaining
  by_cases hneg : step < 0
  · rw [if_pos hneg] at h ⊢
    rw [if_pos hneg]
    omega
  · rw [if_neg hneg] at h ⊢
    rw [if_neg hneg]
    omega

theorem remaining_le (stop step v : Int32) :
    remaining stop.toInt step.toInt v.toInt ≤ 2 ^ 32 := by
  have hstop := stop.le_toInt
  have hstop' := stop.toInt_lt
  have hv := v.le_toInt
  have hv' := v.toInt_lt
  unfold remaining
  split <;> omega

variable {σ : Type} {b : Bindings} {name : String} {body : Exec σ Unit} {start stop step : Int32}
  {x : Number} {m : MachineOn σ} {v : Int32}

/-- A loop that goes on has not passed the end, and has moved its variable by a step. -/
theorem oneRound_counting {m' : MachineOn σ} (hstop : x.StandsFor stop) (hbody : Scoped body)
    (hm : m.bindings = b.bind name (.integer v))
    (h : oneRound name (.counting start x step) body m = .ok true m') :
    ¬Past stop.toInt step.toInt v.toInt ∧ ∃ w : Int32, w.toInt = v.toInt + step.toInt ∧
      m'.bindings = b.bind name (.integer w) := by
  obtain ⟨_, m₁, m₂, hnext, hrun, hagain⟩ := oneRound_again h
  obtain ⟨hpast, hm₁⟩ := not_past_of_nextRound (find?_of_bind hm) hstop hnext
  have hm₂ : m₂.bindings = b.bind name (.integer v) :=
    ((Ends.of_ok hrun).1 (hbody m₁)).trans (hm₁.trans hm)
  obtain ⟨w, hw, rfl⟩ := advance_again (find?_of_bind hm₂) hagain
  exact ⟨hpast, w, hw, rebind_of_bind hm₂ _⟩

/-- The body is not started more often than there are integers up to the end. -/
theorem length_entries_le (hstep : step ≠ 0) (hstop : x.StandsFor stop) (hbody : Scoped body)
    (more : Nat) (hm : m.bindings = b.bind name (.integer v)) :
    (entries name (.counting start x step) body more m).length ≤
      remaining stop.toInt step.toInt v.toInt := by
  have hne : step.toInt ≠ 0 := fun h => hstep (Int32.toInt_inj.1 h)
  induction more generalizing m v with
  | zero => exact Nat.zero_le _
  | succ more ih =>
    rw [entries]
    split
    · rename_i v' m₁ hnext
      have hpos := remaining_pos (not_past_of_nextRound (find?_of_bind hm) hstop hnext).1
      split
      · rename_i m' hround
        obtain ⟨hpast, w, hw, hm'⟩ := oneRound_counting hstop hbody hm hround
        have hlt := remaining_lt hne hpast
        have hrest := ih hm'
        rw [hw] at hrest
        rw [List.length_cons]
        omega
      · exact hpos
    · exact Nat.zero_le _

theorem looks_counting (hstop : x.StandsFor stop) (hbody : Scoped body) (more : Nat)
    (hm : m.bindings = b.bind name (.integer v)) :
    ∀ m' ∈ looks name (.counting start x step) body more m,
      ∃ w : Int32, m'.bindings = b.bind name (.integer w) := by
  refine forall_looks (fun ⟨_, hm⟩ hround => ?_) more ⟨v, hm⟩
  obtain ⟨-, w, -, hm'⟩ := oneRound_counting hstop hbody hm hround
  exact ⟨w, hm'⟩

theorem entries_counting (hstop : x.StandsFor stop) (hbody : Scoped body) (more : Nat)
    (hm : m.bindings = b.bind name (.integer v)) :
    ∀ m' ∈ entries name (.counting start x step) body more m,
      ∃ w : Int32, m'.bindings = b.bind name (.integer w) := by
  refine forall_entries (p := fun m => ∃ w : Int32, m.bindings = b.bind name (.integer w)) ?_ ?_
    more ⟨v, hm⟩
  · intro m m' ⟨_, hm⟩ hround
    obtain ⟨-, w, -, hm'⟩ := oneRound_counting hstop hbody hm hround
    exact ⟨w, hm'⟩
  · intro m m' _ ⟨w, hm⟩ hnext
    exact ⟨w, (not_past_of_nextRound (find?_of_bind hm) hstop hnext).2.trans hm⟩

/-! ## Loops that end -/

/-- Where only integers are bound, the computation does not give up. -/
def Settles (act : Exec σ Unit) : Prop :=
  ∀ m, m.bindings.Integral → Ends act m (fun _ _ => True) fun h _ => h ≠ .outOfRounds

theorem settles_of_plain {act : Exec σ Unit} (h : Keeps MachineOn.frame Halt.Plain act) :
    Settles act := by
  intro m _
  refine (h m).imp (fun _ _ _ => trivial) ?_
  rintro _ _ ⟨-, e, rfl, -⟩
  exact Halt.fault_ne_outOfRounds e

theorem settles_next {act next : Exec σ Unit} (hscoped : Scoped act) (h : Settles act)
    (hnext : Settles next) : Settles (act >>= fun _ => next) := by
  intro m hm
  refine (((hscoped m).and (h m hm)).imp (fun _ _ h => h.1) fun _ _ h => h.2).bind ?_
  intro _ m' hm'
  exact hnext m' (hm' ▸ hm)

/-- A single round gives up only if its body does. -/
theorem ends_oneRound (r : Bounds) (hb : b.Integral) (hscoped : Scoped body) (hbody : Settles body)
    (hm : m.bindings = b.bind name (.integer v)) :
    Ends (oneRound name r body) m (fun _ _ => True) fun h _ => h ≠ .outOfRounds := by
  have hnext : Ends (nextRound name r) m (fun _ m' => m'.bindings = b.bind name (.integer v))
      fun h _ => h ≠ .outOfRounds := by
    refine (ends_nextRound r (find?_of_bind hm)).imp ?_ ?_
    · rintro _ _ (⟨-, rfl⟩ | ⟨-, rfl, -⟩) <;> exact hm
    · rintro _ _ (⟨-, text, rfl⟩ | ⟨-, limit, -, -, rfl⟩) <;> exact Halt.fault_ne_outOfRounds _
  refine hnext.bind fun next m₁ hm₁ => ?_
  cases next with
  | none => trivial
  | some _ =>
    have hrun := (hscoped m₁).and (hbody m₁ (hm₁ ▸ hb.bind name v))
    refine (hrun.imp (fun _ _ h => h.1) fun _ _ h => h.2).bind fun _ m₂ hm₂ => ?_
    refine (ends_advance r (find?_of_bind (hm₂.trans hm₁))).imp (fun _ _ _ => trivial) ?_
    rintro _ _ ⟨-, e, -, rfl⟩
    exact Halt.fault_ne_outOfRounds e

theorem settles_rounds (hstep : step ≠ 0) (hstop : x.StandsFor stop) (hb : b.Integral)
    (hscoped : Scoped body) (hbody : Settles body) (more : Nat)
    (hm : m.bindings = b.bind name (.integer v))
    (hmore : remaining stop.toInt step.toInt v.toInt < more) :
    Ends (rounds name (.counting start x step) body more) m (fun _ _ => True)
      fun h _ => h ≠ .outOfRounds := by
  have hne : step.toInt ≠ 0 := fun h => hstep (Int32.toInt_inj.1 h)
  induction more generalizing m v with
  | zero => omega
  | succ more ih =>
    rw [rounds_succ, Ends.bind_iff]
    have hends := ends_oneRound (.counting start x step) hb hscoped hbody hm
    cases hround : oneRound name (.counting start x step) body m with
    | error h m' =>
      rw [Ends.of_error hround] at hends ⊢
      exact hends
    | ok again m' =>
      rw [Ends.of_ok hround]
      cases again with
      | false => trivial
      | true =>
        obtain ⟨hpast, w, hw, hm'⟩ := oneRound_counting hstop hscoped hm hround
        have hlt := remaining_lt hne hpast
        exact ih hm' (by rw [hw]; omega)

theorem settles_loop {limit : Nat} {head : LoopHead} (hhead : head.integral = true)
    (hlimit : 2 ^ 32 < limit) (hscoped : Scoped body) (hbody : Settles body) :
    Settles (loop limit head body) := by
  intro m hm
  refine ends_loop (fun e _ => Halt.fault_ne_outOfRounds e) fun r hr => ?_
  obtain ⟨start, stop, step, hne, rfl⟩ := hm.bounds hhead hr
  have htop : OnTop m.bindings head.name
      { m with bindings := m.bindings.bind head.name (.integer start) } := ⟨_, rfl⟩
  have hsettles : Ends (rounds head.name (.counting start (.integer stop) step) body limit)
      { m with bindings := m.bindings.bind head.name (.integer start) } (fun _ _ => True)
      fun h _ => h ≠ .outOfRounds :=
    settles_rounds hne (Number.standsFor_integer stop) hm hscoped hbody limit rfl
      (Nat.lt_of_le_of_lt (remaining_le stop step start) hlimit)
  refine ((onTop_rounds _ hscoped limit htop).and hsettles).imp ?_ ?_
  · exact fun _ _ h => ⟨h.1, trivial⟩
  · exact fun _ _ h => ⟨h.1.1, h.2⟩

end Exec

/-! ## Trees -/

/-- Only integers are bound where the variable gets a value, and the body is started no more often
than there are 32-bit integers. -/
structure LoopRun.Integral {σ : Type} (run : LoopRun σ) : Prop where
  looks : ∀ m ∈ run.looks, m.bindings.Integral
  entries : run.entries.length ≤ 2 ^ 32

theorem Exec.loopRuns_integral {σ : Type} {limit : Nat} {head : LoopHead} {body : Exec σ Unit}
    {inside : MachineOn σ → List (LoopRun σ)} (hhead : head.integral = true) (hscoped : Scoped body)
    (hinside : ∀ m, m.bindings.Integral → ∀ run ∈ inside m, run.Integral) (m : MachineOn σ)
    (hm : m.bindings.Integral) : ∀ run ∈ loopRuns limit head body inside m, run.Integral := by
  intro run hrun
  unfold loopRuns at hrun
  cases hr : bounds m.bindings head with
  | error e => rw [hr] at hrun; cases hrun
  | ok r =>
    rw [hr] at hrun
    obtain ⟨start, stop, step, hne, rfl⟩ := hm.bounds hhead hr
    have hstop := Number.standsFor_integer stop
    rcases List.mem_cons.1 hrun with rfl | hrun
    · constructor
      · intro m' hmem
        obtain ⟨w, hw⟩ := looks_counting hstop hscoped limit rfl m' hmem
        exact hw ▸ hm.bind head.name w
      · exact Nat.le_trans (length_entries_le hne hstop hscoped limit rfl)
          (remaining_le stop step start)
    · obtain ⟨m', hmem, hrun⟩ := List.mem_flatMap.1 hrun
      obtain ⟨w, hw⟩ := entries_counting hstop hscoped limit rfl m' hmem
      exact hinside m' (hw ▸ hm.bind head.name w) run hrun

variable {σ : Type} [Writer σ] {limit : Nat}

mutual

theorem Node.settles (hlimit : 2 ^ 32 < limit) : ∀ n : Node, n.integral = true →
    Exec.Settles (n.run limit : Exec σ Unit)
  | .text s, _ => Exec.settles_of_plain (Exec.keeps_write s)
  | .echo elements, _ => Exec.settles_of_plain (Exec.keeps_echo elements)
  | .loop head body, h => by
    simp only [Node.integral, Bool.and_eq_true] at h
    exact Exec.settles_loop h.1 hlimit ((Exec.compatible_scoped limit).template body)
      (Template.settles hlimit body h.2)

theorem Template.settles (hlimit : 2 ^ 32 < limit) : ∀ ns : List Node,
    Template.integral ns = true → Exec.Settles (Template.run limit ns : Exec σ Unit)
  | [], _ => Exec.settles_of_plain (Keeps.pure _)
  | n :: ns, h => by
    simp only [Template.integral, Bool.and_eq_true] at h
    exact Exec.settles_next ((Exec.compatible_scoped limit).node n) (Node.settles hlimit n h.1)
      (Template.settles hlimit ns h.2)

end

mutual

theorem Node.loopRuns_integral : ∀ n : Node, n.integral = true → ∀ m : MachineOn σ,
    m.bindings.Integral → ∀ run ∈ n.loopRuns limit m, run.Integral
  | .text _, _, _, _ => fun _ hrun => absurd hrun List.not_mem_nil
  | .echo _, _, _, _ => fun _ hrun => absurd hrun List.not_mem_nil
  | .loop head body, h, m, hm => by
    simp only [Node.integral, Bool.and_eq_true] at h
    exact Exec.loopRuns_integral h.1 ((Exec.compatible_scoped limit).template body)
      (Template.loopRuns_integral body h.2) m hm

theorem Template.loopRuns_integral : ∀ ns : List Node, Template.integral ns = true →
    ∀ m : MachineOn σ, m.bindings.Integral → ∀ run ∈ Template.loopRuns limit ns m, run.Integral
  | [], _, _, _ => fun _ hrun => absurd hrun List.not_mem_nil
  | n :: ns, h, m, hm => by
    simp only [Template.integral, Bool.and_eq_true] at h
    intro run hrun
    rcases List.mem_append.1 hrun with hrun | hrun
    · exact Node.loopRuns_integral n h.1 m hm run hrun
    · cases hact : n.run limit m with
      | error e m' => rw [hact] at hrun; cases hrun
      | ok u m' =>
        rw [hact] at hrun
        have hkept := (Ends.of_ok hact).1 ((Exec.compatible_scoped limit).node n m)
        exact Template.loopRuns_integral ns h.2 m' (hkept ▸ hm) run hrun

end

/-- A template in which no start, end or step of a loop is written as a double ends, whatever the
context and with no need of a limit in it. Whenever the variable of a loop gets a value, all that is
bound is bound to integers, and no execution of a loop starts its body more than `2 ^ 32` times. -/
theorem integral_run_ends (sink : σ) (context : Context) {t : Template}
    (h : Template.integral t = true) :
    t.EndsAs (Machine.start sink context) (t.visit (2 ^ 32 + 1) (Machine.start sink context)) ∧
    ∀ more, ∀ run ∈ Template.loopRuns more t (Machine.start sink context),
      (∀ m ∈ run.looks, m.bindings.Integral) ∧ run.entries.length ≤ 2 ^ 32 := by
  have hempty : (Machine.start sink context).bindings.Integral := .empty
  constructor
  · refine Template.endsAs_iff.2 ⟨?_, _, rfl⟩
    have hends := Template.settles (Nat.lt_succ_self _) t h (Machine.start sink context) hempty
    unfold Template.visit
    split
    · exact (Option.some_ne_none _).symm
    · rename_i hrun
      rw [Ends.of_error hrun] at hends
      exact fun heq => hends (Option.some.inj heq)
  · intro more run hrun
    have hintegral := Template.loopRuns_integral t h _ hempty run hrun
    exact ⟨hintegral.looks, hintegral.entries⟩

/-- Counts down from a text, and inside of that up to the last integer in steps of the variable. -/
def nestedCounting : Template :=
  [.loop ⟨"i", .string "3", .integer 1, some (.integer (-1))⟩
    [.loop ⟨"j", .var "i", .string "2147483647", some (.var "i")⟩ [.echo [.var "j", .double .one]]]]

theorem integral_run_ends_nested :
    Template.integral nestedCounting = true ∧
    (nestedCounting.EndsAs (Machine.start Sink.unbounded .default)
        (nestedCounting.visit (2 ^ 32 + 1) (Machine.start Sink.unbounded .default)) ∧
      ∀ more, ∀ run ∈ Template.loopRuns more nestedCounting
          (Machine.start Sink.unbounded .default),
        (∀ m ∈ run.looks, m.bindings.Integral) ∧ run.entries.length ≤ 2 ^ 32) := by
  have hintegral : Template.integral nestedCounting = true := by decide +kernel
  exact ⟨hintegral, integral_run_ends Sink.unbounded .default hintegral⟩

end TagTemplate
