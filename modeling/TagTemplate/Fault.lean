import TagTemplate.Text.Characters

/-! What can go wrong while a template runs. -/

namespace TagTemplate

inductive Fault where
  | unboundVariable (name : String)
  | emptyStack (name : String)
  | notANumber (text : String)
  | divisionByZero
  | overflow (symbol : Char)
  | invalidExponent (text : String)
  | unknownOperator (symbol : Char)
  | operatorUnderflow (symbol : Char) (available : Nat)
  | unknownFunction (name : String)
  | functionUnderflow (name : String) (needed available : Nat)
  | typeMismatch (function expected found : String)
  | invalidFormat (pattern : String)
  | zeroStep (name : String)
  | iterationLimit (limit : Nat)
  | outputFull
deriving DecidableEq

def Fault.message : Fault → String
  | .unboundVariable name => s!"variable `{name}` is not bound"
  | .emptyStack name => s!"stack `{name}` is empty"
  | .notANumber text => "text " ++ Text.quoted text ++ " is not a number"
  | .divisionByZero => "division by zero"
  | .overflow symbol => s!"integer overflow evaluating `{symbol}`"
  | .invalidExponent text => s!"exponent must be a non-negative integer, found `{text}`"
  | .unknownOperator symbol => s!"unknown operator `{symbol}`"
  | .operatorUnderflow symbol available =>
    s!"operator `{symbol}` needs two operands, found {available}"
  | .unknownFunction name => s!"unknown function `@{name}`"
  | .functionUnderflow name needed available =>
    s!"`@{name}` needs {needed} operand(s), found {available}"
  | .typeMismatch function expected found =>
    s!"`@{function}` expected {expected}, found {found}"
  | .invalidFormat pattern => "invalid decimal format pattern " ++ Text.quoted pattern
  | .zeroStep name => s!"FOR loop over `{name}` has a zero step"
  | .iterationLimit limit => s!"loop iteration limit of {limit} exceeded"
  | .outputFull => "failed to write output"

end TagTemplate
