import TagTemplate.Proofs.StackDepth
import TagTemplate.Render

/-! Echo tags in two parts. What an element works on stands on top of the stack, and the values
below its operands are neither read nor moved. So elements that need nothing but what they have put
on the stack themselves do the same on every stack, and may as well stand in a tag of their own. -/

namespace TagTemplate

theorem mapState_eq_ok_iff {ε σ τ α : Type} {f : σ → τ} {r : EStateM.Result ε σ α} {a : α} {t : τ} :
    mapState f r = .ok a t ↔ ∃ s, r = .ok a s ∧ f s = t := by
  cases r <;> simp [mapState, and_assoc]

/-! ## Values below the operands -/

theorem exists_two_of_le_length {α : Type} {l : List α} (h : 2 ≤ l.length) :
    ∃ x y rest, l = x :: y :: rest := by
  obtain ⟨x, l, rfl⟩ := List.exists_cons_of_length_pos (Nat.lt_of_succ_lt h)
  obtain ⟨y, l, rfl⟩ := List.exists_cons_of_length_pos (Nat.lt_of_succ_lt_succ h)
  exact ⟨x, y, l, rfl⟩

/-- The work is done on what stands on top of the rest, which is there again below the results. -/
def Builtin.above (rest : List Value) (act : Builtin.Action (List Value)) :
    Builtin.Action (List Value) :=
  return (← act) ++ rest

namespace Builtin

variable {act : Action (List Value)} {rest results : List Value} {c c' : Context} {fault : Fault}

theorem above_of_ok (h : act c = .ok results c') : above rest act c = .ok (results ++ rest) c' :=
  bind_of_ok h

theorem above_of_error (h : act c = .error fault c') : above rest act c = .error fault c' :=
  bind_of_error h

theorem above_above (top rest : List Value) (act : Action (List Value)) :
    above rest (above top act) = above (top ++ rest) act := by
  simp [above]

/-- A call that finds its operands does not look below them. -/
theorem call_append {f : Builtin} {top : List Value} (h : f.arity.needed ≤ top.length)
    (rest : List Value) : f.call (top ++ rest) = above rest (f.call top) := by
  rw [needed_arity, needed] at h
  unfold call
  cases hact : f.behaviour with
  | unary act =>
    rw [hact] at h
    obtain ⟨x, top, rfl⟩ := List.exists_cons_of_length_pos h
    exact (above_above top rest (act x)).symm
  | binary act =>
    rw [hact] at h
    obtain ⟨y, x, top, rfl⟩ := exists_two_of_le_length h
    exact (above_above top rest (act x y)).symm

end Builtin

namespace Element

open Builtin (Action above above_of_ok above_of_error)
open MonadExcept (ofExcept)

theorem operate_append {top : List Value} (symbol : Char) (h : 2 ≤ top.length)
    (rest : List Value) :
    operate symbol (top ++ rest) = (operate symbol top).map (· ++ rest) := by
  obtain ⟨rhs, lhs, top, rfl⟩ := exists_two_of_le_length h
  simp only [List.cons_append, operate]
  cases Operation.ofSymbol? symbol with
  | none => rfl
  | some op =>
    dsimp only
    cases Value.apply op lhs rhs <;> rfl

/-- The step: where an element finds its operands, it leaves alone what is below. -/
theorem eval_append (b : Bindings) {e : Element} {top : List Value}
    (h : e.arity.needed ≤ top.length) (rest : List Value) :
    e.eval b (top ++ rest) = above rest (e.eval b top) := by
  cases e with
  | integer n => rfl
  | double x => rfl
  | string s => rfl
  | var name =>
    simp only [eval]
    cases b.lookup name <;> rfl
  | operator symbol =>
    simp only [eval, operate_append symbol h rest]
    cases operate symbol top <;> rfl
  | function name =>
    simp only [eval, arity] at h ⊢
    cases hf : Builtin.ofName? name with
    | none => rfl
    | some f =>
      rw [hf] at h
      exact Builtin.call_append h rest

theorem evalAll_cons (b : Bindings) (e : Element) (es : List Element) (stack : List Value) :
    evalAll b (e :: es) stack = e.eval b stack >>= evalAll b es := List.foldlM_cons

theorem evalAll_append (b : Bindings) (es es' : List Element) (stack : List Value) :
    evalAll b (es ++ es') stack = evalAll b es stack >>= evalAll b es' := List.foldlM_append

/-- The run: if no element finds too little on the top alone, none of them looks below. -/
theorem evalAll_above (b : Bindings) {es : List Element} {top : List Value}
    (h : shortage? es top.length = none) (rest : List Value) :
    evalAll b es (top ++ rest) = above rest (evalAll b es top) := by
  induction es generalizing top with
  | nil => rfl
  | cons e es ih =>
    have hneeded : e.arity.needed ≤ top.length := by
      refine Nat.not_lt.1 fun hlt => ?_
      rw [shortage?_cons_of_lt hlt] at h
      cases h
    rw [shortage?_cons_of_le hneeded] at h
    funext c
    rw [evalAll_cons, evalAll_cons, eval_append b hneeded]
    cases heval : e.eval b top c with
    | error fault c' =>
      rw [bind_of_error (above_of_error heval), above_of_error (bind_of_error heval)]
    | ok results c' =>
      have hlength := ((Ends.of_ok heval).1 (e.fits_eval b top c)).2
      rw [← hlength] at h
      rw [bind_of_ok (above_of_ok heval), ih h]
      unfold above
      rw [bind_assoc, bind_of_ok heval]

end Element

variable {σ : Type}

namespace Exec

open Element (evalAll)

/-! ## Output -/

/-- Output takes no notice of the context, and hands it on. -/
def PassesContext {α : Type} (act : Exec σ α) : Prop :=
  ∀ (m : MachineOn σ) (c : Context),
    act { m with context := c } = mapState ({ · with context := c }) (act m)

namespace PassesContext

theorem pure {α : Type} (a : α) : PassesContext (Pure.pure a : Exec σ α) := fun _ _ => rfl

theorem bind {α β : Type} {act : Exec σ α} {next : α → Exec σ β} (h : PassesContext act)
    (hnext : ∀ a, PassesContext (next a)) : PassesContext (act >>= next) := by
  intro m c
  have hfirst := h m c
  cases hact : act m with
  | ok a m₁ =>
    rw [hact] at hfirst
    rw [bind_of_ok hfirst, bind_of_ok hact]
    exact hnext a m₁ c
  | error e m₁ =>
    rw [hact] at hfirst
    rw [bind_of_error hfirst, bind_of_error hact]
    rfl

theorem forM {α : Type} {f : α → Exec σ PUnit} (h : ∀ a, PassesContext (f a)) (as : List α) :
    PassesContext (as.forM f) := by
  induction as with
  | nil => exact pure _
  | cons a as ih => exact (h a).bind fun _ => ih

end PassesContext

variable [Writer σ] {m m' : MachineOn σ}

theorem passesContext_write (s : String) : PassesContext (write s : Exec σ Unit) := by
  intro m c
  cases hw : Writer.write m.sink s with
  | mk done sink =>
    cases done with
    | true =>
      rw [write_of_true (m := m) hw]
      exact write_of_true hw
    | false =>
      rw [write_of_false (m := m) hw]
      exact write_of_false hw

theorem passesContext_writeValue (v : Value) : PassesContext (writeValue v : Exec σ Unit) := by
  cases v with
  | absent => exact fun _ _ => rfl
  | number n => exact passesContext_write _
  | text s => exact passesContext_write _

/-- Values are written from the bottom of the stack up. -/
def writeAll (stack : List Value) : Exec σ Unit := stack.reverse.forM writeValue

/-- The upper values are written behind the lower ones. -/
theorem writeAll_append (left below : List Value) :
    (writeAll (left ++ below) : Exec σ Unit) = writeAll below >>= fun _ => writeAll left := by
  unfold writeAll
  rw [List.reverse_append]
  exact List.forM_append

theorem passesContext_writeAll (stack : List Value) :
    PassesContext (writeAll stack : Exec σ Unit) :=
  .forM passesContext_writeValue stack.reverse

theorem writeAll_with {stack : List Value} {c : Context} :
    writeAll stack { m with context := c } = .ok () m' ↔
      ∃ m₁, writeAll stack m = .ok () m₁ ∧ { m₁ with context := c } = m' := by
  rw [passesContext_writeAll stack m c, mapState_eq_ok_iff]

theorem besideSink_writeAll {stack : List Value} (h : writeAll stack m = .ok () m') :
    m'.besideSink = m.besideSink :=
  (Ends.of_ok h).1 (Keeps.forM output_writeValue stack.reverse m)

theorem echo_eq_ok_iff {elements : List Element} : echo elements m = .ok () m' ↔
    ∃ stack c, evalAll m.bindings elements [] m.context = .ok stack c ∧
      writeAll stack { m with context := c } = .ok () m' := by
  constructor
  · intro h
    cases heval : evalAll m.bindings elements [] m.context with
    | ok stack c => exact ⟨stack, c, rfl, (echo_of_ok heval).symm.trans h⟩
    | error fault c => cases (echo_of_error heval).symm.trans h
  · rintro ⟨stack, c, heval, hout⟩
    exact (echo_of_ok heval).trans hout

/-! ## The two parts -/

variable {e₁ e₂ : List Element}

/-- The second part is evaluated above what the first part has left. -/
theorem evalAll_parts (h : Element.shortage? e₂ 0 = none) {b : Bindings} {stack : List Value}
    {c c₂ : Context} : evalAll b (e₁ ++ e₂) [] c = .ok stack c₂ ↔
      ∃ below c₁ left, evalAll b e₁ [] c = .ok below c₁ ∧ evalAll b e₂ [] c₁ = .ok left c₂ ∧
        stack = left ++ below := by
  have habove (below : List Value) : evalAll b e₂ below = Builtin.above below (evalAll b e₂ []) :=
    @Element.evalAll_above b e₂ [] h below
  rw [Element.evalAll_append]
  constructor
  · intro hall
    obtain ⟨below, c₁, hfirst, hsecond⟩ := ok_of_bind hall
    rw [habove] at hsecond
    obtain ⟨left, _, hleft, hstack⟩ := ok_of_bind hsecond
    cases hstack
    exact ⟨below, c₁, left, hfirst, hleft, rfl⟩
  · rintro ⟨below, c₁, left, hfirst, hsecond, rfl⟩
    rw [bind_of_ok hfirst, habove]
    exact Builtin.above_of_ok hsecond

theorem echo_bind_eq_ok_iff : (echo e₁ >>= fun _ => echo e₂) m = .ok () m' ↔
    ∃ below c₁ m₁ left c₂, evalAll m.bindings e₁ [] m.context = .ok below c₁ ∧
      writeAll below { m with context := c₁ } = .ok () m₁ ∧
      evalAll m.bindings e₂ [] c₁ = .ok left c₂ ∧
      writeAll left { m₁ with context := c₂ } = .ok () m' := by
  have hkept {below : List Value} {c₁ : Context} {m₁ : MachineOn σ}
      (h : writeAll below { m with context := c₁ } = .ok () m₁) :
      m₁.bindings = m.bindings ∧ m₁.context = c₁ := by
    have hbeside := besideSink_writeAll h
    exact ⟨congrArg (·.1) hbeside, congrArg (·.2.2) hbeside⟩
  constructor
  · intro h
    obtain ⟨⟨⟩, m₁, hfirst, hsecond⟩ := ok_of_bind h
    obtain ⟨below, c₁, heval₁, hbelow⟩ := echo_eq_ok_iff.1 hfirst
    obtain ⟨left, c₂, heval₂, hleft⟩ := echo_eq_ok_iff.1 hsecond
    rw [(hkept hbelow).1, (hkept hbelow).2] at heval₂
    exact ⟨below, c₁, m₁, left, c₂, heval₁, hbelow, heval₂, hleft⟩
  · rintro ⟨below, c₁, m₁, left, c₂, heval₁, hbelow, heval₂, hleft⟩
    rw [← (hkept hbelow).1, ← (hkept hbelow).2] at heval₂
    rw [bind_of_ok (echo_eq_ok_iff.2 ⟨below, c₁, heval₁, hbelow⟩)]
    exact echo_eq_ok_iff.2 ⟨left, c₂, heval₂, hleft⟩

/-- In the one tag the lower values are written when the second part has been evaluated, in the two
tags before that. -/
theorem echo_append_eq_ok_iff (h : Element.shortage? e₂ 0 = none) :
    echo (e₁ ++ e₂) m = .ok () m' ↔ (echo e₁ >>= fun _ => echo e₂) m = .ok () m' := by
  rw [echo_bind_eq_ok_iff, echo_eq_ok_iff]
  constructor
  · rintro ⟨stack, c₂, heval, hout⟩
    obtain ⟨below, c₁, left, hfirst, hsecond, rfl⟩ := (evalAll_parts h).1 heval
    rw [writeAll_append] at hout
    obtain ⟨⟨⟩, m₂, hbelow, hleft⟩ := ok_of_bind hout
    obtain ⟨m₁, hm₁, rfl⟩ := writeAll_with (m := { m with context := c₁ }).1 hbelow
    exact ⟨below, c₁, m₁, left, c₂, hfirst, hm₁, hsecond, hleft⟩
  · rintro ⟨below, c₁, m₁, left, c₂, hfirst, hbelow, hsecond, hleft⟩
    refine ⟨left ++ below, c₂, (evalAll_parts h).2 ⟨below, c₁, left, hfirst, hsecond, rfl⟩, ?_⟩
    rw [writeAll_append,
      bind_of_ok (writeAll_with (m := { m with context := c₁ }).2 ⟨m₁, hbelow, rfl⟩)]
    exact hleft

end Exec

variable [Writer σ]

/-- A tag can be split in front of elements that need nothing but what they have put on the stack
themselves. The one tag comes to a good end exactly if the two do, and then the same is written, in
the same order, and the context and all else is left the same. -/
theorem echo_splits {e₂ : List Element} (h : Element.shortage? e₂ 0 = none) (e₁ : List Element)
    (limit : Nat) (m m' : MachineOn σ) :
    (Node.echo (e₁ ++ e₂)).run limit m = .ok () m' ↔
      Template.run limit [.echo e₁, .echo e₂] m = .ok () m' := by
  have htwo : (Template.run limit [.echo e₁, .echo e₂] : Exec σ Unit) =
      Exec.echo e₁ >>= fun _ => Exec.echo e₂ := by
    simp [Template.run, Node.run]
  rw [htwo, Node.run]
  exact Exec.echo_append_eq_ok_iff h

/-- The second part reads what the first one has stored, and works above a value left there. -/
theorem echo_splits_stored :
    Element.shortage? [.string "n", .integer 0, .function "tparamGet", .integer 2, .operator '+',
      .function "dup"] 0 = none ∧
    Template.run 0 [.echo [.integer 7, .string "1", .string "n", .function "tparamSet"],
        .echo [.string "n", .integer 0, .function "tparamGet", .integer 2, .operator '+',
          .function "dup"]] (Machine.start Sink.unbounded .default) =
      .ok () (Machine.start ⟨"733", none⟩ (Context.default.setTemporary "n" "1")) :=
  ⟨rfl, (echo_splits rfl _ 0 _ _).1 rfl⟩

end TagTemplate
