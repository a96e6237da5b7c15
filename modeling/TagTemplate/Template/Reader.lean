import TagTemplate.Template.Basic
import TagTemplate.Token.Stream

/-! Reading templates: a machine that takes one token at a time. It keeps the nodes read so far at
the current level, the FOR blocks that are open around them, and its place in the current tag. -/

namespace TagTemplate

inductive ParseError where
  | scan (e : ScanError)
  | unknownTag (found : String)
  | unexpectedToken (tag found : String)
  | invalidElement (tag kind text : String)
  | forArity (count : Nat)
  | forVariable (found : String)
  | endNotClosed (found : String)
  | nothingToEnd
  | unclosed (count : Nat)
  | unterminatedTag
deriving DecidableEq

def ParseError.message : ParseError → String
  | .scan e => e.message
  | .unknownTag found => s!"unknown tag starting with {found}"
  | .unexpectedToken tag found => s!"unexpected {found} inside {tag} tag"
  | .invalidElement tag kind text => s!"{kind} `{text}` is not allowed in a {tag} tag"
  | .forArity count => s!"FOR tag expects 3 or 4 elements, found {count}"
  | .forVariable found => s!"FOR loop variable must be a variable name, found {found}"
  | .endNotClosed found => s!"END tag must be closed right away, found {found}"
  | .nothingToEnd => "END tag has nothing to end"
  | .unclosed count => s!"{count} unclosed tag(s) at end of document"
  | .unterminatedTag => "document ended inside a tag"

/-- An element that computes has no place among the bounds of a loop. -/
def Element.isData : Element → Bool
  | .function _ | .operator _ => false
  | _ => true

/-- The head of a FOR block: its variable, start, perhaps a step, and end. -/
def LoopHead.ofElements (elements : List Element) : Except ParseError LoopHead :=
  match elements.find? (!·.isData) with
  | some e => .error (.invalidElement Keyword.loop.spelling e.kindName e.text)
  | none =>
    match elements with
    | [.var name, start, stop] => .ok ⟨name, start, stop, none⟩
    | [.var name, start, step, stop] => .ok ⟨name, start, stop, some step⟩
    | [e, _, _] | [e, _, _, _] => .error (.forVariable e.text)
    | _ => .error (.forArity elements.length)

namespace Template

/-- Where the reader stands; the elements of the current tag are kept last first. -/
inductive Place where
  | outside
  | opened
  | inLoop (elements : List Element)
  | inEcho (elements : List Element)
  | closing

/-- An open FOR block: its head, and the nodes before it at its own level, last first. -/
structure OpenBlock where
  head : LoopHead
  before : List Node

/-- The nodes at the current level are kept last first, the open blocks innermost first. -/
structure Reader where
  place : Place
  nodes : List Node
  blocks : List OpenBlock

namespace Reader

def start : Reader := ⟨.outside, [], []⟩

/-- An END tag makes the current level the body of the innermost open block. -/
def closeBlock (r : Reader) : Except ParseError Reader :=
  match r.blocks with
  | [] => .error .nothingToEnd
  | block :: outer => .ok ⟨.outside, .loop block.head r.nodes.reverse :: block.before, outer⟩

def feed (r : Reader) (t : Token) : Except ParseError Reader :=
  match r.place, t with
  | .outside, .text s => .ok { r with nodes := .text s :: r.nodes }
  | .outside, .tagOpen => .ok { r with place := .opened }
  | .outside, t => .error (.unknownTag t.describe)
  | .opened, .keyword .loop => .ok { r with place := .inLoop [] }
  | .opened, .keyword .echo => .ok { r with place := .inEcho [] }
  | .opened, .keyword .close => .ok { r with place := .closing }
  | .opened, t => .error (.unknownTag t.describe)
  | .inLoop elements, .element e => .ok { r with place := .inLoop (e :: elements) }
  | .inLoop elements, .tagClose => do
    let head ← LoopHead.ofElements elements.reverse
    .ok ⟨.outside, [], ⟨head, r.nodes⟩ :: r.blocks⟩
  | .inLoop _, t => .error (.unexpectedToken Keyword.loop.spelling t.describe)
  | .inEcho elements, .element e => .ok { r with place := .inEcho (e :: elements) }
  | .inEcho elements, .tagClose =>
    .ok ⟨.outside, .echo elements.reverse :: r.nodes, r.blocks⟩
  | .inEcho _, t => .error (.unexpectedToken Keyword.echo.spelling t.describe)
  | .closing, .tagClose => r.closeBlock
  | .closing, t => .error (.endNotClosed t.describe)

/-- At the end of the template no tag and no block may be open. -/
def finish (r : Reader) : Except ParseError Template :=
  match r.place with
  | .outside =>
    if r.blocks.isEmpty then .ok r.nodes.reverse else .error (.unclosed r.blocks.length)
  | _ => .error .unterminatedTag

end Reader

/-- A fault of the reader at an earlier token wins over a scanning error behind it. -/
def parse (source : String) : Except ParseError Template := do
  let (tokens, stop) := (Scanner.ofString source).tokens
  let r ← tokens.foldlM Reader.feed Reader.start
  match stop with
  | some e => throw (.scan e)
  | none => r.finish

end Template

end TagTemplate
