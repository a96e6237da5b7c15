import TagTemplate.Proofs.Evaluation

/-! What operations see of their operands: the numbers that these stand for, and nothing else. The
operands are resolved in a fixed order, and the first one that stands for no number is reported. A
value that an operation fails on is left as it was. -/

namespace TagTemplate

def Number.isDouble : Number → Bool
  | .integer _ => false
  | .double _ => true

/-- A result of an operation is a double exactly where `double` says so. -/
def Number.DoubleIff (double : Bool) (result : Except Fault Number) : Prop :=
  ∀ n, result = .ok n → n.isDouble = double

namespace Value

variable {α : Type}

/-- The operation resolves the left operand and then the right one, and goes on with their numbers
in the place of the operands. -/
def SeesNumbers (operation : Value → Value → Except Fault α) (a b : Value) : Prop :=
  match a.toNumeric, b.toNumeric with
  | .error _, _ => operation a b = .error (.notANumber a.display)
  | .ok _, .error _ => operation a b = .error (.notANumber b.display)
  | .ok x, .ok y => operation a b = operation x y

/-- A power resolves the exponent first, which must be an integer from zero up, and then the base;
the kind of the result is that of the base. -/
def SeesExponentFirst (a b : Value) : Prop :=
  match b.toNumber with
  | .error _ => a.apply .power b = .error (.notANumber b.display)
  | .ok (.double _) => a.apply .power b = .error (.invalidExponent b.display)
  | .ok (.integer exponent) =>
    if exponent < 0 then a.apply .power b = .error (.invalidExponent b.display)
    else match a.toNumber with
      | .error _ => a.apply .power b = .error (.notANumber a.display)
      | .ok base => a.apply .power b = (number base).apply .power (integer exponent) ∧
          Number.DoubleIff base.isDouble (a.apply .power b)

/-! ## Resolving -/

/-- Only a text can stand for no number, and it is named then. -/
theorem toNumber_cases (v : Value) :
    (∃ n, v.toNumber = .ok n) ∨ v.toNumber = .error (.notANumber v.display) := by
  cases v with
  | absent => exact .inl ⟨_, rfl⟩
  | number n => exact .inl ⟨n, rfl⟩
  | text s =>
    cases h : numberOfChars? s.toList with
    | some n => exact .inl ⟨n, by rw [toNumber, h]⟩
    | none => exact .inr (by rw [toNumber, h]; rfl)

theorem toNumeric_of_ok {v : Value} {n : Number} (h : v.toNumber = .ok n) :
    v.toNumeric = .ok (.number n) := by
  rw [toNumeric, h]
  rfl

theorem toNumeric_of_error {v : Value} {fault : Fault} (h : v.toNumber = .error fault) :
    v.toNumeric = .error fault := by
  rw [toNumeric, h]
  rfl

/-- A number stands for itself. -/
theorem toNumeric_eq_ok_iff {v w : Value} :
    v.toNumeric = .ok w ↔ ∃ n, v.toNumber = .ok n ∧ w = .number n := by
  cases h : v.toNumber with
  | ok n =>
    rw [toNumeric_of_ok h]
    constructor
    · rintro ⟨⟩
      exact ⟨n, rfl, rfl⟩
    · rintro ⟨_, ⟨⟩, rfl⟩
      rfl
  | error fault =>
    rw [toNumeric_of_error h]
    constructor
    · rintro ⟨⟩
    · rintro ⟨_, ⟨⟩, -⟩

/-! ## Both operands from left to right -/

theorem seesNumbers_of_eq {operation : Value → Value → Except Fault α}
    {f : Number → Number → Except Fault α}
    (h : ∀ v w, operation v w = do f (← v.toNumber) (← w.toNumber)) (a b : Value) :
    SeesNumbers operation a b := by
  unfold SeesNumbers
  rcases a.toNumber_cases with ⟨x, hx⟩ | hx
  · rcases b.toNumber_cases with ⟨y, hy⟩ | hy
    · rw [toNumeric_of_ok hx, toNumeric_of_ok hy]
      dsimp only
      rw [h a b, h (.number x) (.number y), hx, hy]
      rfl
    · rw [toNumeric_of_ok hx, toNumeric_of_error hy]
      dsimp only
      rw [h a b, hx, hy]
      rfl
  · rw [toNumeric_of_error hx]
    dsimp only
    rw [h a b, hx]
    rfl

theorem seesNumbers_compare (a b : Value) : SeesNumbers compare a b :=
  seesNumbers_of_eq (fun _ _ => rfl) a b

end Value

/-! ## Kinds of results -/

namespace Number

theorem doubleIff_ofExact (op : Operation) (n : Option Int32) :
    DoubleIff false (ofExact op n) := by
  cases n with
  | none => rintro _ ⟨⟩
  | some n => rintro _ ⟨⟩; rfl

theorem doubleIff_double (x : Double) : DoubleIff true (.ok (.double x)) := by
  rintro _ ⟨⟩
  rfl

theorem doubleIff_fault (fault : Fault) (double : Bool) : DoubleIff double (.error fault) := by
  rintro _ ⟨⟩

theorem doubleIff_div (x y : Number) : DoubleIff (x.isDouble || y.isDouble) (x.div y) := by
  unfold div
  split
  · exact doubleIff_fault _ _
  · cases x with
    | double x => exact doubleIff_double _
    | integer a =>
      cases y with
      | double y => exact doubleIff_double _
      | integer b => exact doubleIff_ofExact _ _

theorem doubleIff_pow (base : Number) (exponent : Nat) :
    DoubleIff base.isDouble (base.pow exponent) := by
  unfold pow; split
  · exact doubleIff_ofExact _ _
  · exact doubleIff_double _

end Number

namespace Value

theorem apply_of_ne_power {op : Operation} (hop : op ≠ .power) :
    ∃ f : Number → Number → Except Fault Number,
      (∀ v w : Value, v.apply op w = do f (← v.toNumber) (← w.toNumber)) ∧
      ∀ x y, Number.DoubleIff (x.isDouble || y.isDouble) (f x y) := by
  cases op with
  | add | subtract | multiply =>
    -- two integers are computed in integers, and all other numbers in doubles
    refine ⟨_, fun _ _ => rfl, Number.of_kinds ?_ ?_ ?_⟩
    · exact fun _ _ => Number.doubleIff_ofExact _ _
    · exact fun _ _ => Number.doubleIff_double _
    · exact fun _ _ => Number.doubleIff_double _
  | divide => exact ⟨_, fun _ _ => rfl, Number.doubleIff_div⟩
  | power => exact absurd rfl hop

/-! ## Powers -/

theorem apply_power_eq (a b : Value) : a.apply .power b =
    match b.toNumber with
    | .error fault => .error fault
    | .ok (.double _) => .error (.invalidExponent b.display)
    | .ok (.integer exponent) =>
      if exponent < 0 then .error (.invalidExponent b.display)
      else a.toNumber >>= fun base => base.pow exponent.toInt.toNat := by
  unfold apply
  dsimp only
  cases b.toNumber with
  | error fault => rfl
  | ok y => cases y <;> rfl

theorem seesExponentFirst_power (a b : Value) : SeesExponentFirst a b := by
  unfold SeesExponentFirst
  rw [apply_power_eq]
  rcases b.toNumber_cases with ⟨y, hy⟩ | hy
  · rw [hy]
    cases y with
    | double y => rfl
    | integer exponent =>
      dsimp only
      by_cases hneg : exponent < 0
      · rw [if_pos hneg, if_pos hneg]
      · rw [if_neg hneg, if_neg hneg]
        rcases a.toNumber_cases with ⟨base, hbase⟩ | ha
        · rw [hbase]
          refine ⟨?_, Number.doubleIff_pow base _⟩
          rw [apply_power_eq]
          exact (if_neg hneg).symm
        · rw [ha]
          rfl
  · rw [hy]

end Value

/-! ## Held values -/

namespace Value.Held

theorem ends_read {α : Type} (look : Value → Except Fault α) (a : Value) :
    Ends (read look) a (fun result v => look a = .ok result ∧ v = a)
      fun fault v => look a = .error fault ∧ v = a := by
  unfold read
  rw [Ends.bind_iff, Ends.get_iff]
  cases look a <;> exact ⟨rfl, rfl⟩

theorem ends_update (op : Operation) (a b : Value) :
    Ends (update op b) a (fun _ v => ∃ n, a.apply op b = .ok n ∧ v = .number n)
      fun fault v => a.apply op b = .error fault ∧ v = a := by
  refine (ends_read (·.apply op b) a).bind ?_
  rintro n _ ⟨hn, rfl⟩
  exact ⟨n, hn, rfl⟩

end Value.Held

/-- Operations see of their operands the numbers alone, which they resolve in a fixed order, and the
kind of a result follows from the kinds of these. A power reports an exponent that is no integer
from zero up as it is written. To resolve twice is to resolve once, and gives a number. A value that
is held becomes the result of an operation, or it stays as it was where the operation fails; to
compare or to resolve it never changes it. -/
theorem operations_see_numbers (a b : Value) :
    (∀ op, op ≠ .power → Value.SeesNumbers (Value.apply op) a b ∧
      ∀ x y, a.toNumber = .ok x → b.toNumber = .ok y →
        Number.DoubleIff (x.isDouble || y.isDouble) (a.apply op b)) ∧
    Value.SeesNumbers Value.compare a b ∧
    Value.SeesExponentFirst a b ∧
    (∀ v, a.toNumeric = .ok v → v.toNumeric = .ok v ∧ ∃ n, v = .number n) ∧
    (∀ op, Ends (Value.Held.update op b) a
      (fun _ v => ∃ n, a.apply op b = .ok n ∧ v = .number n)
      fun fault v => a.apply op b = .error fault ∧ v = a) ∧
    Ends (Value.Held.read (·.compare b)) a (fun order v => a.compare b = .ok order ∧ v = a)
      (fun fault v => a.compare b = .error fault ∧ v = a) ∧
    Ends (Value.Held.read Value.toNumeric) a (fun n v => a.toNumeric = .ok n ∧ v = a)
      fun fault v => a.toNumeric = .error fault ∧ v = a := by
  refine ⟨fun op hop => ?_, Value.seesNumbers_compare a b, Value.seesExponentFirst_power a b, ?_,
    fun op => Value.Held.ends_update op a b, Value.Held.ends_read _ a, Value.Held.ends_read _ a⟩
  · obtain ⟨f, hf, hkind⟩ := Value.apply_of_ne_power hop
    refine ⟨Value.seesNumbers_of_eq hf a b, fun x y hx hy => ?_⟩
    have happly : a.apply op b = f x y := by
      rw [hf, hx, hy]
      rfl
    rw [happly]
    exact hkind x y
  · intro v hv
    obtain ⟨n, -, rfl⟩ := Value.toNumeric_eq_ok_iff.1 hv
    exact ⟨rfl, n, rfl⟩

/-- The left operand is reported before the right one, but an exponent before its base. -/
example : (Value.text "x").apply .add (.text "y") = .error (.notANumber "x") ∧
    (Value.text "x").apply .power (.text "y") = .error (.notANumber "y") := by
  exact ⟨rfl, rfl⟩

end TagTemplate
