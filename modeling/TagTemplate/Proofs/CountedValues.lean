import TagTemplate.Proofs.Counting
import TagTemplate.Render

/-! Loops that count in integers, value by value. Such a loop is its body run once for each of the
exact integers from the start on that have not passed the end. It never gets to a value that is not
one of the 32-bit integers: where the variable cannot step, the next value lies past the end. -/

namespace TagTemplate

namespace Exec

/-! ## The values -/

/-- How many of the values `start + k * step`, for `k` from zero on, come before the end is
passed. -/
def laps (start stop step : Int) : Nat :=
  if step < 0 then ((start - stop) / -step + 1).toNat else ((stop - start) / step + 1).toNat

/-- The values themselves, in the order in which they come. -/
def values (start stop step : Int) : List Int :=
  (List.range (laps start stop step)).map fun k : Nat => start + k * step

/-- Runs the body for one value after the other, each time with an iteration counted and the
variable bound to the value. -/
def forEach {σ : Type} (name : String) (values : List Int) (body : Exec σ Unit) : Exec σ Unit :=
  values.forM fun v => do
    countIteration
    withBinding name (.integer (.ofInt v)) body

variable {start stop step : Int}

theorem lt_laps (hstep : step ≠ 0) (k : Nat) :
    k < laps start stop step ↔ ¬Past stop step (start + k * step) := by
  unfold laps Past
  by_cases hneg : step < 0
  · rw [if_pos hneg, if_pos hneg, Int.lt_toNat, Int.lt_add_one_iff,
      Int.le_ediv_iff_mul_le (Int.neg_pos_of_neg hneg), Int.mul_neg]
    omega
  · have hpos : 0 < step := by omega
    rw [if_neg hneg, if_neg hneg, Int.lt_toNat, Int.lt_add_one_iff, Int.le_ediv_iff_mul_le hpos]
    omega

/-- The value of a round is known from its number; there is none once the end is passed. -/
theorem getElem?_values (hstep : step ≠ 0) (k : Nat) : (values start stop step)[k]? =
    if Past stop step (start + k * step) then none else some (start + k * step) := by
  unfold values
  rw [List.getElem?_map]
  by_cases hpast : Past stop step (start + k * step)
  · have hge : laps start stop step ≤ k := by
      by_contra hlt
      exact (lt_laps hstep k).1 (Nat.lt_of_not_le hlt) hpast
    rw [if_pos hpast, List.getElem?_eq_none (by rwa [List.length_range])]
    rfl
  · rw [if_neg hpast, List.getElem?_range ((lt_laps hstep k).2 hpast)]
    rfl

example : values 7 0 (-2) = [7, 5, 3, 1] := by decide

theorem values_of_past (hstep : step ≠ 0) (h : Past stop step start) :
    values start stop step = [] := by
  have hfirst : (values start stop step)[0]? = none := by
    rw [getElem?_values hstep, Nat.cast_zero, Int.zero_mul, Int.add_zero, if_pos h]
  cases hvalues : values start stop step with
  | nil => rfl
  | cons v vs =>
    rw [hvalues] at hfirst
    cases hfirst

theorem values_of_not_past (hstep : step ≠ 0) (h : ¬Past stop step start) :
    values start stop step = start :: values (start + step) stop step := by
  apply List.ext_getElem?
  intro k
  rw [getElem?_values hstep]
  cases k with
  | zero =>
    rw [Nat.cast_zero, Int.zero_mul, Int.add_zero, if_neg h]
    rfl
  | succ k =>
    have hshift : start + (k + 1 : Nat) * step = start + step + k * step := by
      rw [Nat.cast_succ, Int.add_mul, Int.one_mul]
      omega
    rw [List.getElem?_cons_succ, getElem?_values hstep, hshift]

/-! ## The 32-bit integers -/

variable {start stop step v : Int32}

theorem toInt_of_mem_values (hstep : step.toInt ≠ 0) {v : Int}
    (h : v ∈ values start.toInt stop.toInt step.toInt) : (Int32.ofInt v).toInt = v := by
  obtain ⟨k, hk⟩ := List.mem_iff_getElem?.1 h
  rw [getElem?_values hstep] at hk
  split at hk
  · cases hk
  · rename_i hpast
    cases hk
    have hbetween := between_of_not_past hpast
    have hstart := And.intro start.le_toInt start.toInt_lt
    have hstop := And.intro stop.le_toInt stop.toInt_lt
    split at hbetween
    · exact Int32.toInt_ofInt_of_le (by omega) (by omega)
    · exact Int32.toInt_ofInt_of_le (by omega) (by omega)

/-- A step that leaves the 32-bit integers passes an end that is one of them. -/
theorem past_of_int32?_none (h : Number.int32? (v.toInt + step.toInt) = none) :
    Past stop.toInt step.toInt (v.toInt + step.toInt) := by
  have hlow := v.le_toInt
  have hhigh := v.toInt_lt
  have hstopLow := stop.le_toInt
  have hstopHigh := stop.toInt_lt
  have hout : ¬(-2147483648 ≤ v.toInt + step.toInt ∧ v.toInt + step.toInt < 2147483648) := by
    intro hrange
    unfold Number.int32? at h
    rw [if_pos hrange] at h
    cases h
  unfold Past
  split
  · omega
  · omega

/-! ## The rounds -/

variable {σ : Type} {name : String} {b : Bindings} {body : Exec σ Unit} {m : MachineOn σ}

/-- Counting does not look at what is bound. -/
theorem countIteration_bindings (b : Bindings) (m : MachineOn σ) :
    countIteration { m with bindings := b } =
      mapState (fun n => { n with bindings := b }) (countIteration m) := by
  rw [countIteration_eq, countIteration_eq]
  dsimp only
  cases m.context.maxLoopIterations with
  | none => rfl
  | some limit =>
    dsimp only
    split <;> rfl

/-- A round is the same with the variable bound for this round alone. -/
theorem round_eq (hbody : Scoped body) (hm : m.bindings = b.bind name (.integer v)) :
    (countIteration >>= fun _ => withBinding name (.integer v) body) { m with bindings := b } =
      mapState (fun n => { n with bindings := b }) ((countIteration >>= fun _ => body) m) := by
  have hcount := countIteration_bindings b m
  have htop : StaysOnTop name body := by
    intro b' n hn
    exact (hbody n).imp (fun _ _ h => by rw [OnTop, h]; exact hn)
      fun _ _ h => by rw [OnTop, h.1]; exact hn
  cases hact : countIteration m with
  | error h m₁ =>
    rw [hact] at hcount
    rw [bind_of_error hact, bind_of_error hcount]
    rfl
  | ok u m₁ =>
    rw [hact] at hcount
    obtain ⟨rfl, -⟩ := (Ends.of_ok hact).1 (ends_countIteration m)
    rw [bind_of_ok hact, bind_of_ok hcount, withBinding_eq htop]
    show mapState _ (body { counted m with bindings := b.bind name (.integer v) }) = _
    rw [← hm]
    rfl

theorem forEach_cons (v : Int) (vs : List Int) : forEach name (v :: vs) body =
    ((countIteration >>= fun _ => withBinding name (.integer (.ofInt v)) body) >>= fun _ =>
      forEach name vs body) := rfl

/-- The rounds from a value on are the values from there on, one after the other. -/
theorem rounds_eq (hbody : Scoped body) (hstep : step.toInt ≠ 0) (more : Nat)
    (hmore : (values v.toInt stop.toInt step.toInt).length < more)
    (hm : m.bindings = b.bind name (.integer v)) :
    mapState (fun n => { n with bindings := b })
        (rounds name (.counting start (.integer stop) step) body more m) =
      forEach name (values v.toInt stop.toInt step.toInt) body { m with bindings := b } := by
  induction more generalizing m v with
  | zero => exact absurd hmore (Nat.not_lt_zero _)
  | succ more ih =>
    rw [rounds_counting more (find?_of_bind hm) (Number.standsFor_integer stop)]
    by_cases hpast : Past stop.toInt step.toInt v.toInt
    · rw [if_pos hpast, values_of_past hstep hpast]
      rfl
    · rw [values_of_not_past hstep hpast] at hmore ⊢
      have hfirst : forEach name
          (v.toInt :: values (v.toInt + step.toInt) stop.toInt step.toInt) body =
          ((countIteration >>= fun _ => withBinding name (.integer v) body) >>= fun _ =>
            forEach name (values (v.toInt + step.toInt) stop.toInt step.toInt) body) := by
        rw [forEach_cons, Int32.ofInt_toInt]
      have hround := round_eq hbody hm
      rw [if_neg hpast, hfirst]
      cases hact : (countIteration >>= fun _ => body) m with
      | error h m₁ =>
        rw [hact] at hround
        rw [bind_of_error hact, bind_of_error hround]
        rfl
      | ok u m₁ =>
        have hm₁ := (bindings_round hbody hact).trans hm
        rw [hact] at hround
        rw [bind_of_ok hact, bind_of_ok hround]
        cases hw : Number.int32? (v.toInt + step.toInt) with
        | none =>
          rw [bind_of_ok (advance_counting_none (find?_of_bind hm₁) hw),
            values_of_past hstep (past_of_int32?_none hw)]
          rfl
        | some w =>
          have hsum := int32?_eq_some_iff.1 hw
          rw [bind_of_ok (advance_counting (find?_of_bind hm₁) hsum.symm), ← hsum]
          rw [List.length_cons, ← hsum] at hmore
          exact ih (Nat.lt_of_succ_lt_succ hmore) (rebind_of_bind hm₁ _)

end Exec

variable {σ : Type} [Writer σ]

/-- A loop with integers for its bounds, wherever they lie. Its values are the exact integers
`start + k * step` that have not passed the end, and they are all 32-bit integers. As long as rounds
do not run out, the loop counts an iteration and runs its body for each of them in turn, with the
variable bound to it on top, and it fails only where one of these does. -/
theorem counted_loop (limit : Nat) {head : LoopHead} {start stop step : Int32} (body : List Node)
    {m : MachineOn σ} (hstart : head.start.bound m.bindings = .ok (.integer start))
    (hstop : head.stop.bound m.bindings = .ok (.integer stop))
    (hstep : Exec.stepOf m.bindings head = .ok (.integer step)) (hne : step ≠ 0)
    (hlimit : (Exec.values start.toInt stop.toInt step.toInt).length < limit) :
    let values := Exec.values start.toInt stop.toInt step.toInt
    (∀ k : Nat, values[k]? =
      if Exec.Past stop.toInt step.toInt (start.toInt + k * step.toInt) then none
      else some (start.toInt + k * step.toInt)) ∧
    (∀ v ∈ values, (Int32.ofInt v).toInt = v) ∧
    (Node.loop head body).run limit m =
      Exec.forEach head.name values (Template.run limit body) m := by
  intro values
  have hzero : step.toInt ≠ 0 := fun h => hne (Int32.toInt_inj.1 h)
  have hbody := (Exec.compatible_scoped limit).template (σ := σ) body
  refine ⟨Exec.getElem?_values hzero, fun v => Exec.toInt_of_mem_values hzero, ?_⟩
  show Exec.loop limit head (Template.run limit body) m = _
  rw [Exec.loop_eq hbody (Exec.bounds_counting hstart hstop hstep hne)]
  exact Exec.rounds_eq hbody hzero limit hlimit rfl

/-- A loop over two odd numbers up to the last of the 32-bit integers. -/
def lastOdd : LoopHead := ⟨"i", .integer 2147483645, .integer 2147483647, some (.integer 2)⟩

theorem counted_loop_lastOdd :
    Exec.values (2147483645 : Int32).toInt (2147483647 : Int32).toInt (2 : Int32).toInt =
      [2147483645, 2147483647] ∧
    (Node.loop lastOdd [.echo [.var "i"]]).run 3 (Machine.start Sink.unbounded .default) =
      Exec.forEach "i" [2147483645, 2147483647] (Template.run 3 [.echo [.var "i"]])
        (Machine.start Sink.unbounded .default) := by
  have hvalues : Exec.values (2147483645 : Int32).toInt (2147483647 : Int32).toInt
      (2 : Int32).toInt = [2147483645, 2147483647] := by decide
  have hlimit : (Exec.values (2147483645 : Int32).toInt (2147483647 : Int32).toInt
      (2 : Int32).toInt).length < 3 := by
    rw [hvalues]
    decide
  have hstart : lastOdd.start.bound (Machine.start Sink.unbounded .default).bindings =
      .ok (.integer 2147483645) := rfl
  have hloop := (counted_loop 3 [.echo [.var "i"]] hstart rfl rfl (by decide) hlimit).2.2
  rw [hvalues] at hloop
  exact ⟨hvalues, hloop⟩

end TagTemplate
