import TagTemplate.Double.Text

/-! Decimal patterns such as `0.000` or `#.00`. A zero is a mandatory digit and a `#` an optional
one; the positions after the point bound the fraction. -/

namespace TagTemplate

structure Pattern where
  leastWhole : Nat
  leastFraction : Nat
  mostFraction : Nat
deriving DecidableEq

namespace Pattern

def isSymbol (c : Char) : Bool := c == '0' || c == '#' || c == '.'

def ofChars? (cs : List Char) : Option Pattern :=
  if cs.isEmpty || !cs.all isSymbol || 1 < cs.count '.' then none
  else
    let whole := cs.takeWhile (· != '.')
    let fraction := (cs.dropWhile (· != '.')).drop 1
    some ⟨whole.count '0', fraction.count '0', fraction.length⟩

/-- The magnitude rounded to a number of places, a half of the last one going to the even digit. -/
def fixedDigits (places : Nat) : Double → List Char × List Char
  | .nan => (Double.nanChars, [])
  | .infinity _ => (Double.infinityChars, [])
  | .finite _ units _ =>
    Numeral.splitAtPoint places (roundDiv (units * 10 ^ places) Double.unitsOfOne)

/-- Optional zeros go from both ends, mandatory ones are filled in; a number that rounds to zero
has no sign, and nothing at all is written as `0`. -/
def format (pattern : Pattern) (x : Double) : String :=
  let (wholeDigits, fractionDigits) := fixedDigits pattern.mostFraction x
  let whole := (wholeDigits.dropWhile (· == '0')).leftpad pattern.leastWhole '0'
  let fraction := fractionDigits.take pattern.leastFraction ++
    Numeral.trimTrailingZeros (fractionDigits.drop pattern.leastFraction)
  let nonzero := (whole ++ fraction).any (· != '0')
  let sign := Double.signChars (x.isNegative && nonzero)
  let body :=
    if fraction.isEmpty then (if whole.isEmpty then ['0'] else whole)
    else whole ++ '.' :: fraction
  String.ofList (sign ++ body)

end Pattern

end TagTemplate
