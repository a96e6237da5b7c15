import TagTemplate.Bindings

/-! What a caller can ask of a value that is held and of the values bound to names. Every request is
answered; where it cannot be met, the answer is what went wrong. -/

namespace TagTemplate

namespace Value.Held

inductive Command where
  | update (op : Operation) (operand : Value)
  | assign (v : Value)
  | compare (operand : Value)
  | toNumeric
  | toDouble

inductive Reply where
  | done
  | order (o : Ordering)
  | value (v : Value)
  | double (x : Double)
deriving DecidableEq

def Command.run : Command → Held Reply
  | .update op operand => do
    Held.update op operand
    return .done
  | .assign v => do
    set v
    return .done
  | .compare operand => return .order (← read (·.compare operand))
  | .toNumeric => return .value (← read Value.toNumeric)
  | .toDouble => return .double (← read Value.toDouble)

end Value.Held

namespace Bindings

/-- Works on the innermost value of a name in its place. -/
def onTop {α : Type} (b : Bindings) (name : String) (act : Value.Held α) :
    Except Fault α × Bindings :=
  match b.peek name with
  | .error e => (.error e, b)
  | .ok v =>
    match act v with
    | .ok a w => (.ok a, b.rebind name w)
    | .error e w => (.error e, b.rebind name w)

inductive Action where
  | push (v : Value)
  | pop
  | peek
  | isEmpty
  | update (command : Value.Held.Command)

inductive Reply where
  | done
  | value (v : Value)
  | isEmpty (answer : Bool)
  | held (reply : Value.Held.Reply)
deriving DecidableEq

/-- The answer to a request at a name, and the bindings after it. -/
def perform (b : Bindings) (name : String) : Action → Except Fault Reply × Bindings
  | .push v => (.ok .done, b.bind name v)
  | .pop =>
    match b.unbind name with
    | .ok (v, b) => (.ok (.value v), b)
    | .error e => (.error e, b)
  | .peek => ((b.peek name).map .value, b)
  | .isEmpty => (.ok (.isEmpty (!b.isBound name)), b)
  | .update command =>
    let (result, b) := b.onTop name command.run
    (result.map .held, b)

end Bindings

end TagTemplate
