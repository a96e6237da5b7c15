import TagTemplate.Value

/-! The units inside a tag. -/

namespace TagTemplate

inductive Element where
  | integer (n : Int32)
  | double (x : Double)
  /-- Escapes are already resolved. -/
  | string (s : String)
  | var (name : String)
  /-- The name stands without its `@`. -/
  | function (name : String)
  | operator (symbol : Char)
deriving DecidableEq

namespace Element

def kindName : Element → String
  | .integer _ => "integer"
  | .double _ => "double"
  | .string _ => "string"
  | .var _ => "variable"
  | .function _ => "function"
  | .operator _ => "operator"

/-- The letter that stands for a character behind a backslash, where it needs one. -/
def escapeLetter? : Char → Option Char
  | '\\' => some '\\'
  | '"' => some '"'
  | '\n' => some 'n'
  | '\r' => some 'r'
  | '\t' => some 't'
  | _ => none

def escapeChar (c : Char) : List Char :=
  match escapeLetter? c with
  | some letter => ['\\', letter]
  | none => [c]

/-- A string as it is written in a tag. -/
def literal (s : List Char) : List Char := '"' :: s.flatMap escapeChar ++ ['"']

/-- The element as it is written in a tag. -/
def text : Element → String
  | .integer n => toString n.toInt
  | .double x => x.text
  | .string s => String.ofList (literal s.toList)
  | .var name => name
  | .function name => "@" ++ name
  | .operator symbol => String.singleton symbol

/-- Equality that compares doubles as numbers: the zeros agree and NaN does not agree with
itself. -/
def agrees : Element → Element → Bool
  | .double x, .double y => x.compare? y == some .eq
  | e, f => e == f

end Element

end TagTemplate
