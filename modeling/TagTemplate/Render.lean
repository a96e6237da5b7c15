import TagTemplate.Run
import TagTemplate.Template.Reader

/-! Templates from source to output. -/

namespace TagTemplate

inductive RenderError where
  | parse (e : ParseError)
  | halt (h : Halt)
deriving DecidableEq

def Halt.message : Halt → String
  | .fault e => e.message
  | .outOfRounds => "a FOR loop does not end"

def RenderError.message : RenderError → String
  | .parse e => "parse error: " ++ e.message
  | .halt h => "runtime error: " ++ h.message

/-- A machine that has nothing bound yet. -/
def Machine.start {σ : Type} (sink : σ) (context : Context) : MachineOn σ :=
  ⟨sink, context, .empty, 0⟩

/-- More rounds than a loop can make in practice. -/
def ampleRounds : Nat := 2 ^ 62

/-- Parses and runs a template. A template that does not parse leaves the context alone, and one
that fails keeps the changes it made to the context before. -/
def renderWith (source : String) (context : Context) : Except RenderError String × Context :=
  match Template.parse source with
  | .error e => (.error (.parse e), context)
  | .ok template =>
    match Template.run ampleRounds template (Machine.start Sink.unbounded context) with
    | .ok () m => (.ok m.sink.written, m.context)
    | .error h m => (.error (.halt h), m.context)

/-- Parses and runs a template on its own. -/
def render (source : String) : Except RenderError String := (renderWith source .default).1

end TagTemplate
