import TagTemplate.Element

/-! Tokens of a template: literal text, the two tag delimiters, and what stands between them. -/

namespace TagTemplate

inductive Keyword where
  | loop
  | close
  | echo
deriving DecidableEq

namespace Keyword

def spelling : Keyword → String
  | .loop => "FOR"
  | .close => "END"
  | .echo => "="

/-- The case of the letters does not matter. -/
def ofIdentifier? (name : List Char) : Option Keyword :=
  if name.map Char.toLower = ['f', 'o', 'r'] then some .loop
  else if name.map Char.toLower = ['e', 'n', 'd'] then some .close
  else none

end Keyword

inductive Token where
  | eof
  | text (s : String)
  | tagOpen
  | tagClose
  | keyword (word : Keyword)
  | element (e : Element)
deriving DecidableEq

/-- The token as a message names it. -/
def Token.describe : Token → String
  | .eof => "end of input"
  | .text _ => "text"
  | .tagOpen => "`\x7b$`"
  | .tagClose => "`$\x7d`"
  | .keyword word => "keyword `" ++ word.spelling ++ "`"
  | .element (.var name) => s!"variable `{name}`"
  | .element (.integer n) => "integer `" ++ toString n.toInt ++ "`"
  | .element (.double x) => "double `" ++ x.briefText ++ "`"
  | .element (.string s) => "string " ++ Text.quoted s
  | .element (.function name) => s!"function `@{name}`"
  | .element (.operator symbol) => s!"operator `{symbol}`"

end TagTemplate
