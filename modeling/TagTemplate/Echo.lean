import TagTemplate.Bindings
import TagTemplate.Builtin
import TagTemplate.Element

/-! Evaluation of an echo tag. Its elements act on a stack from left to right: constants and
variables are pushed, operators and functions work on what is there. -/

namespace TagTemplate

namespace Element

open Builtin (Action)
open MonadExcept (ofExcept)

/-- An operator works on the two top values, the upper one on its right. Missing operands are
noticed before an unknown operator. -/
def operate (symbol : Char) (stack : List Value) : Except Fault (List Value) :=
  match stack with
  | rhs :: lhs :: rest =>
    match Operation.ofSymbol? symbol with
    | some op => (Value.apply op lhs rhs).map fun n => .number n :: rest
    | none => .error (.unknownOperator symbol)
  | _ => .error (.operatorUnderflow symbol stack.length)

/-- The effect of one element on a stack whose top comes first. -/
def eval (b : Bindings) (e : Element) (stack : List Value) : Action (List Value) :=
  match e with
  | .integer n => pure (.integer n :: stack)
  | .double x => pure (.double x :: stack)
  | .string s => pure (.text s :: stack)
  | .var name => return (← ofExcept (b.lookup name)) :: stack
  | .operator symbol => ofExcept (operate symbol stack)
  | .function name =>
    match Builtin.ofName? name with
    | some f => f.call stack
    | none => throw (.unknownFunction name)

/-- The stack that a list of elements leaves. -/
def evalAll (b : Bindings) (elements : List Element) (stack : List Value) :
    Action (List Value) :=
  elements.foldlM (fun stack e => e.eval b stack) stack

/-- The number that a bound or a step of a loop stands for. -/
def bound (b : Bindings) : Element → Except Fault Number
  | .integer n => .ok (.integer n)
  | .double x => .ok (.double x)
  | .string s => (Value.text s).toNumber
  | .var name => (b.lookup name).bind Value.toNumber
  | .function name => .error (.unknownFunction name)
  | .operator symbol => .error (.unknownOperator symbol)

end Element

end TagTemplate
