import TagTemplate.Element

/-! Templates as trees: literal text, echo tags, and FOR blocks around further nodes. -/

namespace TagTemplate

/-- What stands in the opening tag of a FOR block; without a step the variable counts by one. -/
structure LoopHead where
  name : String
  start : Element
  stop : Element
  step : Option Element
deriving DecidableEq

inductive Node where
  | text (s : String)
  | echo (elements : List Element)
  | loop (head : LoopHead) (body : List Node)

abbrev Template := List Node

def LoopHead.agrees (a b : LoopHead) : Bool :=
  a.name == b.name && a.start.agrees b.start && a.stop.agrees b.stop &&
    match a.step, b.step with
    | none, none => true
    | some s, some t => s.agrees t
    | _, _ => false

/-- Do two lists agree element by element? -/
def elementsAgree : List Element → List Element → Bool
  | [], [] => true
  | e :: es, f :: fs => e.agrees f && elementsAgree es fs
  | _, _ => false

mutual

/-- Equality of trees that compares doubles as numbers. -/
def Node.agrees : Node → Node → Bool
  | .text s, .text t => s == t
  | .echo es, .echo fs => elementsAgree es fs
  | .loop a body, .loop b other => a.agrees b && Template.agrees body other
  | _, _ => false

def Template.agrees : List Node → List Node → Bool
  | [], [] => true
  | n :: ns, m :: ms => n.agrees m && Template.agrees ns ms
  | _, _ => false

end

end TagTemplate
