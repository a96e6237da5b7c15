import TagTemplate.Proofs.NumberText
import TagTemplate.Proofs.NumericOrder
import TagTemplate.Proofs.RoundTrip
import TagTemplate.Proofs.StoredParameters
import TagTemplate.Render

/-! Numbers that are kept as parameters. A parameter is text, so a number is stored as it is printed
and has to be read again by whatever uses it. Nothing is lost on the way: its text reads as this
very number, of the same kind and with the same sign of zero. -/

namespace TagTemplate

/-! ## The text of a number as a value -/

/-- A point keeps a numeral from being an integer. -/
theorem Numeral.int?_pointed {negative : Bool} {whole fraction : List Char}
    (hwhole : Scanner.IsDigits whole) :
    int? (Double.signChars negative ++ whole ++ '.' :: fraction) = none := by
  have hpoint : (whole ++ '.' :: fraction).all Char.isDigit = false :=
    List.all_eq_false.2 ⟨'.', List.mem_append_right _ List.mem_cons_self, by decide⟩
  unfold int?
  rw [splitSign_signChars hwhole]
  simp only [hpoint, Bool.not_false, Bool.or_true, if_true]

namespace Value

/-- What a finite number is printed as spells this number and no other one. -/
theorem numberOfChars?_text {n : Number} (h : n.isFinite = true) :
    numberOfChars? n.text.toList = some n := by
  cases n with
  | integer n =>
    obtain ⟨negative, digits, htext, hspells⟩ := integer_spells n
    cases hspells with
    | integer hdigits hint =>
      unfold numberOfChars?
      rw [Number.text, htext, hint]
  | double x =>
    cases x with
    | nan => cases h
    | infinity negative => cases h
    | finite negative units fits =>
      obtain ⟨s, hchars, hspells⟩ := @Double.chars_spells negative units fits
      cases hspells with
      | @double whole fraction _ hwhole hfraction hvalue hfinite =>
        unfold numberOfChars?
        rw [Number.text, Double.text, String.toList_ofList, hchars, ← List.append_assoc,
          Numeral.int?_pointed hwhole, hvalue]
        rfl

/-- Whoever uses the one value gets what the other one gives: operators on either side of it,
comparisons, the functions that take a number, and the output. -/
structure StandsFor (v w : Value) : Prop where
  onLeft : ∀ (symbol : Char) (rhs : Value) (rest : List Value),
    Element.operate symbol (rhs :: v :: rest) = Element.operate symbol (rhs :: w :: rest)
  onRight : ∀ (symbol : Char) (lhs : Value) (rest : List Value),
    Element.operate symbol (v :: lhs :: rest) = Element.operate symbol (w :: lhs :: rest)
  comparedLeft : ∀ rhs : Value, v.compare rhs = w.compare rhs
  comparedRight : ∀ lhs : Value, lhs.compare v = lhs.compare w
  sine : ∀ rest : List Value, Builtin.sin.call (v :: rest) = Builtin.sin.call (w :: rest)
  formatted : ∀ (pattern : Value) (rest : List Value),
    Builtin.decfmt.call (pattern :: v :: rest) = Builtin.decfmt.call (pattern :: w :: rest)
  echoed : ∀ {σ : Type} [Writer σ], (Exec.writeValue v : Exec σ Unit) = Exec.writeValue w

theorem apply_congr {v v' w w' : Value} (hv : v.toNumber = v'.toNumber)
    (hw : w.toNumber = w'.toNumber) (hdisplay : w.display = w'.display) (op : Operation) :
    v.apply op w = v'.apply op w' := by
  cases op <;> simp only [apply, hv, hw, hdisplay]

/-- A value is used through the number that it resolves to and the text that it prints as. -/
theorem StandsFor.of_eq {v w : Value} (hnumber : v.toNumber = w.toNumber)
    (hdisplay : v.display = w.display) (hv : v ≠ .absent) (hw : w ≠ .absent) : v.StandsFor w := by
  have hdouble : v.toDouble = w.toDouble := congrArg (Except.map Number.toDouble) hnumber
  constructor
  · intro symbol rhs rest
    simp only [Element.operate, apply_congr hnumber (Eq.refl rhs.toNumber) rfl]
  · intro symbol lhs rest
    simp only [Element.operate, apply_congr (Eq.refl lhs.toNumber) hnumber hdisplay]
  · intro rhs
    simp only [compare, hnumber]
  · intro lhs
    simp only [compare, hnumber]
  · intro rest
    simp only [Builtin.call, Builtin.behaviour, hdouble]
  · intro pattern rest
    simp only [Builtin.call, Builtin.behaviour, Builtin.formatted, hdouble]
  · intro σ _
    have hwritten {u : Value} (hu : u ≠ .absent) :
        (Exec.writeValue u : Exec σ Unit) = Exec.write u.display := by
      cases u with
      | absent => exact absurd rfl hu
      | number n => rfl
      | text s => rfl
    rw [hwritten hv, hwritten hw, hdisplay]

end Value

/-! ## The moment in which an element is evaluated -/

/-- A run of the nodes comes to evaluate an element, on this stack and in this context, when it has
brought these calls to their end. -/
inductive Template.Reaches {σ : Type} [Writer σ] (limit : Nat) (ns : List Node)
    (m : MachineOn σ) : List Call → Bindings → Element → List Value → Context → Prop
  | element {before after : List Element} {e : Element} {m' : MachineOn σ} {calls : List Call}
      {stack : List Value} {c : Context} :
      Visits limit ns m calls (.echo (before ++ e :: after)) m' →
      Element.evalAll m'.bindings before [] m'.context = .ok stack c →
      Reaches limit ns m (calls ++ Element.calls m'.bindings before [] m'.context) m'.bindings e
        stack c

/-- The calls until then have made of the context what the element finds. -/
theorem Template.Reaches.after {σ : Type} [Writer σ] {limit : Nat} {ns : List Node}
    {m : MachineOn σ} {calls : List Call} {b : Bindings} {e : Element} {stack : List Value}
    {c : Context} (h : Reaches limit ns m calls b e stack c) : m.context.After calls c := by
  cases h with
  | @element before _ _ m' calls _ _ hvisits heval =>
    have hafter := Element.after_evalAll m'.bindings before [] m'.context
    rw [heval] at hafter
    exact hvisits.after.trans hafter

/-! ## Getting what was set -/

def Store.getter : Store → Builtin
  | .persistent => .pparamGet
  | .temporary => .tparamGet

theorem Store.eval_getter (store : Store) (b : Bindings) (default key : Value) (rest : List Value)
    (c : Context) : (Element.function store.getter.name).eval b (default :: key :: rest) c =
      .ok (Builtin.orDefault (store.parameters c)[key.display]? default ++ rest) c := by
  have hname : Builtin.ofName? store.getter.name = some store.getter := by cases store <;> decide
  simp only [Element.eval, hname]
  cases store <;> rfl

/-- Calls behind the last effective one do not matter. -/
theorem Call.last?_of_idle {α : Type} {effect? : Call → Option α} {call : Call} {effect : α}
    {before later : List Call} (hcall : effect? call = some effect)
    (hlater : ∀ call' ∈ later, effect? call' = none) :
    last? effect? (before ++ call :: later) = some effect := by
  have hidle : last? effect? later = none := last?_eq_none.2 hlater
  have hcons : call :: later = [call] ++ later := rfl
  rw [last?_append, hcons, last?_append, hidle, last?_singleton, hcall]
  rfl

theorem Context.After.stored_of_set {store : Store} {value key : Value} {before later : List Call}
    {origin c : Context}
    (h : origin.After (before ++ ⟨store.setter, [value, key]⟩ :: later) c)
    (hlater : ∀ call ∈ later, call.entry? store key.display = none) :
    (store.parameters c)[key.display]? = some value.display := by
  have hset : Call.entry? store key.display ⟨store.setter, [value, key]⟩ =
      some (some value.display) := if_pos ⟨rfl, rfl⟩
  rw [h.stored, Call.last?_of_idle hset hlater]
  rfl

/-- A finite number that is stored as text resolves to itself and is printed as before, so the text
stands for it wherever values are used. And it is what a run gets, in whichever tag, round or later
render it asks, when the last call before that changed the name has stored the number there. -/
theorem stored_number_reads_back {n : Number} (hn : n.isFinite = true) :
    let stored := Value.text (Value.number n).display
    stored.toNumeric = .ok (.number n) ∧ stored.display = (Value.number n).display ∧
    stored.StandsFor (.number n) ∧
    ∀ (store : Store) (σ : Type) [Writer σ] (limit : Nat) (ns : List Node) (m : MachineOn σ)
      (origin c : Context) (earlier calls before later : List Call) (b : Bindings)
      (key key' default : Value) (rest : List Value),
      origin.After earlier m.context →
      Template.Reaches limit ns m calls b (.function store.getter.name)
        (default :: key' :: rest) c →
      earlier ++ calls = before ++ ⟨store.setter, [.number n, key]⟩ :: later →
      (∀ call ∈ later, call.entry? store key.display = none) → key'.display = key.display →
      (Element.function store.getter.name).eval b (default :: key' :: rest) c =
        .ok (stored :: rest) c := by
  intro stored
  have hnumber : stored.toNumber = (Value.number n).toNumber := by
    show Value.toNumber (.text n.text) = .ok n
    simp only [Value.toNumber, Value.numberOfChars?_text hn]
  refine ⟨?_, rfl, ?_, ?_⟩
  · exact congrArg (Except.map Value.number) hnumber
  · have htext (s : String) : Value.text s ≠ .absent := by simp
    exact .of_eq hnumber rfl (htext _) (by simp)
  · intro store σ _ limit ns m origin c earlier calls before later b key key' default rest hearlier
      hreaches hcalls hlater hkey
    have hafter := hearlier.trans hreaches.after
    rw [hcalls] at hafter
    rw [store.eval_getter, hkey, hafter.stored_of_set hlater]
    rfl

def negativeZero : Number := .double (.finite true 0 Double.fits_zero)

def settingZero : List Element :=
  [.double (.finite true 0 Double.fits_zero), .string "k", .function "pparamSet"]

def gettingZero : List Element := [.string "k", .integer 1, .function "pparamGet"]

/-- The sign of a zero is stored with it. -/
theorem stored_number_reads_back_negativeZero :
    let t : Template := [.echo settingZero, .echo gettingZero]
    let c := Context.default.setPersistent "k" "-0.0"
    Template.parse "\x7b$= -0.0 \"k\" @pparamSet $\x7d\x7b$= \"k\" 1 @pparamGet $\x7d" = .ok t ∧
    negativeZero.isFinite = true ∧
    Template.Reaches 1 t (Machine.start Sink.unbounded .default)
      [⟨.pparamSet, [.number negativeZero, .text "k"]⟩] .empty (.function "pparamGet")
      [.integer 1, .text "k"] c ∧
    (Value.text "-0.0").toNumeric = .ok (.number negativeZero) ∧
    (Element.function "pparamGet").eval .empty [.integer 1, .text "k"] c = .ok [.text "-0.0"] c := by
  intro t c
  have hcanonical : Template.Canonical t := by decide +kernel
  have hsource : Template.toSource t =
      "\x7b$= -0.0 \"k\" @pparamSet $\x7d\x7b$= \"k\" 1 @pparamGet $\x7d" := by decide +kernel
  have htext : (Value.number negativeZero).display = "-0.0" := by decide +kernel
  have hset : Element.evalAll .empty settingZero [] .default =
      .ok [] (Context.default.setPersistent "k" (Value.number negativeZero).display) := rfl
  rw [htext] at hset
  have hrun : (Node.echo settingZero).run 1 (Machine.start Sink.unbounded .default) =
      .ok () (Machine.start Sink.unbounded c) :=
    Exec.echo_of_ok (m := Machine.start Sink.unbounded .default) hset
  have hvisits : Template.Visits 1 t (Machine.start Sink.unbounded .default)
      [⟨.pparamSet, [.number negativeZero, .text "k"]⟩]
      (.echo ([.string "k", .integer 1] ++ [.function "pparamGet"]))
      (Machine.start Sink.unbounded c) := .later hrun .here
  have hreaches : Template.Reaches 1 t (Machine.start Sink.unbounded .default)
      [⟨.pparamSet, [.number negativeZero, .text "k"]⟩] .empty (.function "pparamGet")
      [.integer 1, .text "k"] c := .element hvisits rfl
  obtain ⟨hnumeric, -, -, hstored⟩ := @stored_number_reads_back negativeZero rfl
  rw [htext] at hnumeric hstored
  exact ⟨hsource ▸ hcanonical.parse_toSource, rfl, hreaches, hnumeric,
    hstored .persistent Sink 1 t _ .default c [] _ [] [] .empty (.text "k") (.text "k") (.integer 1)
      [] (.refl _) hreaches rfl (List.forall_mem_nil _) rfl⟩

end TagTemplate
