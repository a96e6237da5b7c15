import TagTemplate.Number

/-! Values that a template computes with. Arithmetic and comparison see a value only through the
number it resolves to: nothing counts as zero, and text is read as an integer if it is one, else
as a finite double. -/

namespace TagTemplate

inductive Value where
  | absent
  | number (n : Number)
  | text (s : String)
deriving DecidableEq

namespace Value

def integer (n : Int32) : Value := .number (.integer n)

def double (x : Double) : Value := .number (.double x)

def typeName : Value → String
  | .absent => "absent"
  | .number (.integer _) => "integer"
  | .number (.double _) => "double"
  | .text _ => "text"

/-- How the value is written to the output. -/
def display : Value → String
  | .absent => ""
  | .number n => n.text
  | .text s => s

/-- The number that a text spells. -/
def numberOfChars? (cs : List Char) : Option Number :=
  match (Numeral.int? cs).bind Number.int32? with
  | some n => some (.integer n)
  | none => ((Decimal.ofChars? cs).map Decimal.toDouble).bind fun x =>
    if x.isFinite then some (.double x) else none

def toNumber : Value → Except Fault Number
  | .absent => .ok (.integer 0)
  | .number n => .ok n
  | .text s =>
    match numberOfChars? s.toList with
    | some n => .ok n
    | none => .error (.notANumber s)

/-- The number as a value again. -/
def toNumeric (v : Value) : Except Fault Value := v.toNumber.map .number

def toDouble (v : Value) : Except Fault Double := v.toNumber.map Number.toDouble

/-- The operands resolve from left to right; the exponent of a power resolves before its base and
must be an integer from zero up. -/
def apply (op : Operation) (lhs rhs : Value) : Except Fault Number :=
  match op with
  | .add => do (← lhs.toNumber).add (← rhs.toNumber)
  | .subtract => do (← lhs.toNumber).sub (← rhs.toNumber)
  | .multiply => do (← lhs.toNumber).mul (← rhs.toNumber)
  | .divide => do (← lhs.toNumber).div (← rhs.toNumber)
  | .power => do
    match ← rhs.toNumber with
    | .integer exponent =>
      if exponent < 0 then throw (.invalidExponent rhs.display)
      else (← lhs.toNumber).pow exponent.toInt.toNat
    | .double _ => throw (.invalidExponent rhs.display)

/-- Numeric order; only a NaN is comparable to nothing. -/
def compare (lhs rhs : Value) : Except Fault Ordering := do
  match (← lhs.toNumber).compare? (← rhs.toNumber) with
  | some order => pure order
  | none => throw (.notANumber Double.nan.text)

/-- Work on a value that is held, and may be changed in its place. -/
abbrev Held := EStateM Fault Value

namespace Held

open MonadExcept (ofExcept)

/-- Only looks at the value. -/
def read {α : Type} (look : Value → Except Fault α) : Held α := do ofExcept (look (← get))

/-- Puts the result of an operation in the place of its left operand. -/
def update (op : Operation) (operand : Value) : Held Unit := do
  let n ← read (·.apply op operand)
  set (Value.number n)

end Held

end Value

end TagTemplate
