import TagTemplate.Template.Basic

/-! Templates written as source, in one normal form: keywords in capitals, a single space before
each element, the step of a FOR before its end. -/

namespace TagTemplate

/-- Text as it is written outside tags: a backslash is doubled, and one is put before a brace that
would open a tag. -/
def escapeText : List Char → List Char
  | [] => []
  | '\\' :: rest => '\\' :: '\\' :: escapeText rest
  | '{' :: '$' :: rest => '\\' :: '{' :: '$' :: escapeText rest
  | c :: rest => c :: escapeText rest

def spaced (elements : List Element) : List Char :=
  elements.flatMap fun e => ' ' :: e.text.toList

def LoopHead.source (head : LoopHead) : List Char :=
  ['{', '$', ' ', 'F', 'O', 'R', ' '] ++ head.name.toList ++
    spaced (head.start :: head.step.toList ++ [head.stop]) ++ [' ', '$', '}']

mutual

def Node.source : Node → List Char
  | .text s => escapeText s.toList
  | .echo elements => ['{', '$', '='] ++ spaced elements ++ [' ', '$', '}']
  | .loop head body =>
    head.source ++ Template.source body ++ ['{', '$', 'E', 'N', 'D', '$', '}']

def Template.source : List Node → List Char
  | [] => []
  | n :: ns => n.source ++ Template.source ns

end

def Template.toSource (t : Template) : String := String.ofList (Template.source t)

end TagTemplate
