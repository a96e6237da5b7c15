import Mathlib.Data.List.Forall2
import Mathlib.Data.Option.Basic
import TagTemplate.Echo
import TagTemplate.Template.Basic

/-! Templates that match, each under bindings of its own: they have the same shape, and their
elements the same values. A template matches itself wherever its names have the same values. -/

namespace TagTemplate

/-- Elements that have the same value, each under its own bindings. -/
inductive Element.Matches (b b' : Bindings) : Element → Element → Prop
  | var {name name' : String} : b'.lookup name' = b.lookup name →
      Matches b b' (.var name) (.var name')
  | constant {e : Element} : (∀ name, e ≠ .var name) → Matches b b' e e

/-- Loops with the same bounds; their variables are related by `names`. -/
structure LoopHead.Matches (names : String → String → Prop) (b b' : Bindings)
    (head head' : LoopHead) : Prop where
  name : names head.name head'.name
  start : head.start.Matches b b' head'.start
  stop : head.stop.Matches b b' head'.stop
  step : Option.Rel (Element.Matches b b') head.step head'.step

/-- Templates of the same shape with matching elements, whatever values the loops give to their
variables. -/
inductive Template.Matches (names : String → String → Prop) :
    Bindings → Bindings → List Node → List Node → Prop
  | nil {b b' : Bindings} : Matches names b b' [] []
  | text {b b' : Bindings} {s : String} {ns ns' : List Node} : Matches names b b' ns ns' →
      Matches names b b' (.text s :: ns) (.text s :: ns')
  | echo {b b' : Bindings} {es es' : List Element} {ns ns' : List Node} :
      List.Forall₂ (Element.Matches b b') es es' → Matches names b b' ns ns' →
      Matches names b b' (.echo es :: ns) (.echo es' :: ns')
  | loop {b b' : Bindings} {head head' : LoopHead} {body body' ns ns' : List Node} :
      head.Matches names b b' head' →
      (∀ v, Matches names (b.bind head.name v) (b'.bind head'.name v) body body') →
      Matches names b b' ns ns' →
      Matches names b b' (.loop head body :: ns) (.loop head' body' :: ns')

/-! ## The names in a template -/

def Element.names : Element → List String
  | .var name => [name]
  | _ => []

def LoopHead.names (head : LoopHead) : List String :=
  head.name :: head.start.names ++ head.stop.names ++ head.step.toList.flatMap Element.names

mutual

def Node.names : Node → List String
  | .text _ => []
  | .echo elements => elements.flatMap Element.names
  | .loop head body => head.names ++ Template.names body

/-- The names of all variables, those of elements and those of loops. -/
def Template.names : List Node → List String
  | [] => []
  | n :: ns => n.names ++ Template.names ns

end

/-! ## The functions in a template -/

def Element.builtins : Element → List Builtin
  | .function name => (Builtin.ofName? name).toList
  | _ => []

mutual

def Node.builtins : Node → List Builtin
  | .text _ => []
  | .echo elements => elements.flatMap Element.builtins
  | .loop _ body => Template.builtins body

/-- The functions that echo tags name. -/
def Template.builtins : List Node → List Builtin
  | [] => []
  | n :: ns => n.builtins ++ Template.builtins ns

end

namespace Element

variable {b b' : Bindings} {e e' : Element}

theorem Matches.of_names (h : ∀ name ∈ e.names, b'.lookup name = b.lookup name) :
    e.Matches b b' e := by
  cases e with
  | var name => exact .var (h name List.mem_cons_self)
  | _ => exact .constant nofun

theorem Matches.refl (b : Bindings) (e : Element) : e.Matches b b e :=
  .of_names fun _ _ => rfl

theorem Matches.bound (h : e.Matches b b' e') : e'.bound b' = e.bound b := by
  cases h with
  | var hlookup => simp only [Element.bound, hlookup]
  | constant hne =>
    cases e with
    | var name => exact absurd rfl (hne name)
    | _ => rfl

end Element

variable {names : String → String → Prop}

theorem LoopHead.Matches.of_names {b b' : Bindings} {head : LoopHead}
    (hrefl : ∀ name, names name name) (h : ∀ name ∈ head.names, b'.lookup name = b.lookup name) :
    head.Matches names b b' head where
  name := hrefl _
  start := .of_names fun name hname => h name (by simp [LoopHead.names, hname])
  stop := .of_names fun name hname => h name (by simp [LoopHead.names, hname])
  step := by
    cases hstep : head.step with
    | none => exact .none
    | some e =>
      refine .some (.of_names fun name hname => h name ?_)
      simp [LoopHead.names, hstep, hname]

mutual

/-- A node in front of matching templates that matches itself. -/
theorem Template.Matches.cons_of_names (hrefl : ∀ name, names name name) :
    ∀ (n : Node) {ns ns' : List Node} {b b' : Bindings},
    (∀ name ∈ n.names, b'.lookup name = b.lookup name) → Template.Matches names b b' ns ns' →
      Template.Matches names b b' (n :: ns) (n :: ns')
  | .text _, _, _, _, _, _, hns => .text hns
  | .echo es, _, _, _, _, h, hns => by
    refine .echo (List.forall₂_same.2 fun e he => .of_names fun name hname => h name ?_) hns
    exact List.mem_flatMap.2 ⟨e, he, hname⟩
  | .loop head body, _, _, b, b', h, hns => by
    simp only [Node.names, List.mem_append] at h
    refine .loop (.of_names hrefl fun name hname => h name (.inl hname)) (fun v => ?_) hns
    refine .of_names hrefl fun name hname => ?_
    rw [Bindings.lookup_bind, Bindings.lookup_bind, h name (.inr hname)]

/-- A template matches itself where its names have the same values. -/
theorem Template.Matches.of_names (hrefl : ∀ name, names name name) :
    ∀ {ns : List Node} {b b' : Bindings},
    (∀ name ∈ Template.names ns, b'.lookup name = b.lookup name) →
      Template.Matches names b b' ns ns
  | [], _, _, _ => .nil
  | n :: ns, _, _, h => by
    simp only [Template.names, List.mem_append] at h
    exact .cons_of_names hrefl n (fun name hname => h name (.inl hname))
      (.of_names hrefl fun name hname => h name (.inr hname))

end

theorem Template.Matches.refl (hrefl : ∀ name, names name name) (b : Bindings) (ns : List Node) :
    Template.Matches names b b ns ns :=
  .of_names hrefl fun _ _ => rfl

end TagTemplate
