import TagTemplate.Context
import TagTemplate.Double.Bits
import TagTemplate.Pattern
import TagTemplate.Value

/-! The functions that an echo tag can call. Each takes one or two operands off the stack, the last
one from the top, and puts its results in their place. -/

namespace TagTemplate

inductive Builtin where
  | sin
  | decfmt
  | dup
  | swap
  | setMimeType
  | paramGet
  | pparamGet
  | tparamGet
  | pparamSet
  | tparamSet
  | pparamDel
  | tparamDel
deriving DecidableEq

namespace Builtin

open MonadExcept (ofExcept)

def all : List Builtin :=
  [.sin, .decfmt, .dup, .swap, .setMimeType, .paramGet, .pparamGet, .tparamGet, .pparamSet,
    .tparamSet, .pparamDel, .tparamDel]

def name : Builtin → String
  | .sin => "sin"
  | .decfmt => "decfmt"
  | .dup => "dup"
  | .swap => "swap"
  | .setMimeType => "setMimeType"
  | .paramGet => "paramGet"
  | .pparamGet => "pparamGet"
  | .tparamGet => "tparamGet"
  | .pparamSet => "pparamSet"
  | .tparamSet => "tparamSet"
  | .pparamDel => "pparamDel"
  | .tparamDel => "tparamDel"

def ofName? (name : String) : Option Builtin := all.find? (·.name == name)

/-- Work that may change the context; a fault keeps the changes made before it. -/
abbrev Action := EStateM Fault Context

/-- What a function does with its operands; its results are listed from the top of the stack. -/
inductive Behaviour where
  | unary (act : Value → Action (List Value))
  | binary (act : Value → Value → Action (List Value))

/-- The pattern of a format must be text, which is looked at before the number. -/
def formatted (x pattern : Value) : Except Fault String :=
  match pattern with
  | .text source => do
    let x ← x.toDouble
    match Pattern.ofChars? source.toList with
    | some pattern => pure (pattern.format x)
    | none => throw (.invalidFormat source)
  | other => throw (.typeMismatch Builtin.decfmt.name "text" other.typeName)

/-- A stored parameter is text; without one the default stands as it is. -/
def orDefault (stored : Option String) (default : Value) : List Value :=
  [(stored.map Value.text).getD default]

def behaviour : Builtin → Behaviour
  | .sin => .unary fun x => do
    let x ← ofExcept x.toDouble
    pure [.double x.sinDegrees]
  | .decfmt => .binary fun x pattern => do
    let s ← ofExcept (formatted x pattern)
    pure [.text s]
  | .dup => .unary fun x => pure [x, x]
  | .swap => .binary fun a b => pure [a, b]
  | .setMimeType => .unary fun mime => do
    modify (·.setMimeType mime.display)
    pure []
  | .paramGet => .binary fun name default => do
    pure (orDefault ((← get).parameters[name.display]?) default)
  | .pparamGet => .binary fun name default => do
    pure (orDefault ((← get).persistent[name.display]?) default)
  | .tparamGet => .binary fun name default => do
    pure (orDefault ((← get).temporary[name.display]?) default)
  | .pparamSet => .binary fun value name => do
    modify (·.setPersistent name.display value.display)
    pure []
  | .tparamSet => .binary fun value name => do
    modify (·.setTemporary name.display value.display)
    pure []
  | .pparamDel => .unary fun name => do
    modify (·.removePersistent name.display)
    pure []
  | .tparamDel => .unary fun name => do
    modify (·.removeTemporary name.display)
    pure []

/-- The number of operands. -/
def needed (f : Builtin) : Nat :=
  match f.behaviour with
  | .unary _ => 1
  | .binary _ => 2

/-- Runs the function on a stack whose top comes first. -/
def call (f : Builtin) (stack : List Value) : Action (List Value) :=
  match f.behaviour, stack with
  | .unary act, x :: rest => return (← act x) ++ rest
  | .binary act, y :: x :: rest => return (← act x y) ++ rest
  | _, _ => throw (.functionUnderflow f.name f.needed stack.length)

end Builtin

end TagTemplate
