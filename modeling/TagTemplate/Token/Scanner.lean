import TagTemplate.Token.Basic
import TagTemplate.Text.Characters

/-! Reading tokens off a template. Outside tags a token is a run of text up to the next opening
delimiter, with its escapes resolved; inside a tag it is one element, keyword or delimiter. The
delimiters alone switch between the two. After an error scanning can go on from where it stopped. -/

namespace TagTemplate

inductive ScanError where
  | invalidEscape (offset : Nat) (found : String)
  | unterminatedString (offset : Nat)
  | malformedNumber (offset : Nat) (text : String)
  | invalidIdentifier (offset : Nat)
  | unrecognizedCharacter (offset : Nat) (found : Char)
  | pastEof
deriving DecidableEq

def ScanError.message : ScanError → String
  | .invalidEscape offset found => s!"invalid escape sequence `\\{found}` at offset {offset}"
  | .unterminatedString offset => s!"unterminated string starting at offset {offset}"
  | .malformedNumber offset text => s!"malformed number `{text}` at offset {offset}"
  | .invalidIdentifier offset => s!"invalid identifier at offset {offset}"
  | .unrecognizedCharacter offset found => s!"unrecognized character `{found}` at offset {offset}"
  | .pastEof => "end of input was already reached"

namespace Scanner

/-- Puts a character in front of what was read, if anything was. -/
def withFirst {ε : Type} (c : Char) (read : Except ε (List Char × List Char)) :
    Except ε (List Char × List Char) :=
  read.map fun (run, rest) => (c :: run, rest)

theorem withFirst_eq_ok_iff {ε : Type} {c : Char} {read : Except ε (List Char × List Char)}
    {run rest : List Char} :
    withFirst c read = .ok (run, rest) ↔ ∃ tail, read = .ok (tail, rest) ∧ run = c :: tail := by
  cases read with
  | error e => simp [withFirst, Except.map]
  | ok p =>
    obtain ⟨tail, after⟩ := p
    simp only [withFirst, Except.map, Except.ok.injEq, Prod.mk.injEq]
    constructor
    · rintro ⟨rfl, rfl⟩
      exact ⟨tail, ⟨rfl, rfl⟩, rfl⟩
    · rintro ⟨_, ⟨rfl, rfl⟩, rfl⟩
      exact ⟨rfl, rfl⟩

/-- Literal text up to an opening delimiter or the end, and what follows it. A backslash must
stand before a backslash or a brace; at another one the run fails with the input from there on. -/
def textRun : List Char → Except (List Char) (List Char × List Char)
  | [] => .ok ([], [])
  | '{' :: '$' :: rest => .ok ([], '{' :: '$' :: rest)
  | '\\' :: '\\' :: rest => withFirst '\\' (textRun rest)
  | '\\' :: '{' :: rest => withFirst '{' (textRun rest)
  | '\\' :: rest => .error ('\\' :: rest)
  | c :: rest => withFirst c (textRun rest)

/-- The character that a letter behind a backslash stands for. -/
def unescape? : Char → Option Char
  | '\\' => some '\\'
  | '"' => some '"'
  | 'n' => some '\n'
  | 'r' => some '\r'
  | 't' => some '\t'
  | _ => none

inductive StringFault where
  | unterminated (rest : List Char)
  | badEscape (rest : List Char)

/-- What a string holds from behind its opening quote, and what follows its closing one. -/
def stringBody : List Char → Except StringFault (List Char × List Char)
  | [] => .error (.unterminated [])
  | '"' :: rest => .ok ([], rest)
  | ['\\'] => .error (.unterminated ['\\'])
  | '\\' :: letter :: rest =>
    match unescape? letter with
    | some c => withFirst c (stringBody rest)
    | none => .error (.badEscape ('\\' :: letter :: rest))
  | c :: rest => withFirst c (stringBody rest)

def isNameChar (c : Char) : Bool := c.isAlphanum || c == '_'

/-- A name starts with an ASCII letter. -/
def name? : List Char → Option (List Char × List Char)
  | [] => none
  | c :: rest =>
    if c.isAlpha then some (c :: rest.takeWhile isNameChar, rest.dropWhile isNameChar) else none

/-- A numeral may not run into a letter, a number, a point or an underscore. -/
def runsOn (c : Char) : Bool := Text.isAlphanumeric c || c == '.' || c == '_'

/-- The element that a complete numeral spells: digits alone are an integer, which must be in
range; with a point they are a double, which must be finite. -/
def numeralElement? (pointed : Bool) (cs : List Char) : Option Element :=
  if pointed then
    ((Decimal.ofChars? cs).map Decimal.toDouble).bind fun x =>
      if x.isFinite then some (.double x) else none
  else ((Numeral.int? cs).bind Number.int32?).map .integer

/-- Ends a numeral: the text is malformed if it runs on, with the character that shows it. -/
def endNumeral (pointed : Bool) (text rest : List Char) :
    Except (List Char) Element × List Char :=
  match rest.head?.filter runsOn with
  | some c => (.error (text ++ [c]), rest)
  | none =>
    match numeralElement? pointed text with
    | some e => (.ok e, rest)
    | none => (.error text, rest)

/-- Digits behind a sign that was already read, and perhaps a point with digits behind it; the text
itself if it is malformed. -/
def unsignedNumeral (sign cs : List Char) : Except (List Char) Element × List Char :=
  let whole := sign ++ cs.takeWhile Char.isDigit
  match cs.dropWhile Char.isDigit with
  | '.' :: rest =>
    let text := whole ++ '.' :: rest.takeWhile Char.isDigit
    if (rest.takeWhile Char.isDigit).isEmpty then (.error text, rest)
    else endNumeral true text (rest.dropWhile Char.isDigit)
  | rest => endNumeral false whole rest

def numeral : List Char → Except (List Char) Element × List Char
  | '-' :: rest => unsignedNumeral ['-'] rest
  | cs => unsignedNumeral [] cs

/-- A minus that touches a digit belongs to the numeral. -/
def startsNumeral : List Char → Bool
  | '-' :: c :: _ => c.isDigit
  | c :: _ => c.isDigit
  | [] => false

/-- A backslash that starts no escape, with the character after it, if there is one. -/
def badEscape (size : Nat) (rest : List Char) : Except ScanError Token × List Char :=
  (.error (.invalidEscape (size - rest.length) (String.ofList ((rest.drop 1).take 1))), rest)

/-- A string, from behind its opening quote. -/
def stringToken (size : Nat) (cs : List Char) : Except ScanError Token × List Char :=
  match stringBody cs with
  | .ok (body, rest) => (.ok (.element (.string (String.ofList body))), rest)
  | .error (.unterminated rest) => (.error (.unterminatedString (size - (cs.length + 1))), rest)
  | .error (.badEscape rest) => badEscape size rest

/-- A function, from behind its `@`. -/
def functionToken (size : Nat) (cs : List Char) : Except ScanError Token × List Char :=
  match name? cs with
  | some (name, rest) => (.ok (.element (.function (String.ofList name))), rest)
  | none => (.error (.invalidIdentifier (size - (cs.length + 1))), cs)

def numeralToken (size : Nat) (cs : List Char) : Except ScanError Token × List Char :=
  match numeral cs with
  | (.ok e, rest) => (.ok (.element e), rest)
  | (.error text, rest) =>
    (.error (.malformedNumber (size - cs.length) (String.ofList text)), rest)

def tokenOfName (name : List Char) : Token :=
  match Keyword.ofIdentifier? name with
  | some word => .keyword word
  | none => .element (.var (String.ofList name))

/-- A numeral, an operator, or a keyword or variable; nothing else starts with this character. -/
def plainToken (size : Nat) (c : Char) (rest : List Char) : Except ScanError Token × List Char :=
  if startsNumeral (c :: rest) then numeralToken size (c :: rest)
  else if (Operation.ofSymbol? c).isSome then (.ok (.element (.operator c)), rest)
  else match name? (c :: rest) with
    | some (name, rest) => (.ok (tokenOfName name), rest)
    | none => (.error (.unrecognizedCharacter (size - (rest.length + 1)) c), c :: rest)

/-- The token at the front of a tag's input, without leading blanks, and what follows it. The
offset of a place is the size of the whole template less what follows the place. -/
def tagToken (size : Nat) (cs : List Char) : Except ScanError Token × List Char :=
  match cs with
  | [] => (.ok .eof, [])
  | '$' :: '}' :: rest => (.ok .tagClose, rest)
  | '=' :: rest => (.ok (.keyword .echo), rest)
  | '"' :: rest => stringToken size rest
  | '@' :: rest => functionToken size rest
  | c :: rest => plainToken size c rest

/-- The token at the front of the input outside tags, and what follows it. -/
def textToken (size : Nat) (cs : List Char) : Except ScanError Token × List Char :=
  match cs with
  | [] => (.ok .eof, [])
  | '{' :: '$' :: rest => (.ok .tagOpen, rest)
  | cs =>
    match textRun cs with
    | .ok (run, rest) => (.ok (.text (String.ofList run)), rest)
    | .error rest => badEscape size rest

inductive Mode where
  | text
  | tag
deriving DecidableEq

/-- The delimiters switch the mode. -/
def Mode.after (mode : Mode) : Except ScanError Token → Mode
  | .ok .tagOpen => .tag
  | .ok .tagClose => .text
  | _ => mode

end Scanner

/-- A place in a template of `size` characters. -/
structure Scanner where
  size : Nat
  rest : List Char
  mode : Scanner.Mode
  finished : Bool

namespace Scanner

def ofString (source : String) : Scanner :=
  ⟨source.toList.length, source.toList, .text, false⟩

/-- The number of characters read so far. -/
def position (s : Scanner) : Nat := s.size - s.rest.length

/-- One token. Behind the end of the input there is nothing but errors. -/
def next (s : Scanner) : Except ScanError Token × Scanner :=
  if s.finished then (.error .pastEof, s)
  else
    let (result, rest) := match s.mode with
      | .text => textToken s.size s.rest
      | .tag => tagToken s.size (s.rest.dropWhile Text.isBlank)
    (result, ⟨s.size, rest, s.mode.after result, result matches .ok .eof⟩)

end Scanner

end TagTemplate
