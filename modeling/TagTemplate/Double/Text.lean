import TagTemplate.Double.Decimal

/-! Binary64 numbers as text: the fewest digits that read back to the number, written positionally.
Of two shortest candidates the nearer is taken, and the upper one when they are equally near. -/

namespace TagTemplate.Double

/-- The least number of binary, hence of decimal, places that write the magnitude exactly. -/
def exactPlaces (units : Nat) : Nat := 1074 - (units.gcd unitsOfOne).log2

/-- The magnitude times `10 ^ exactPlaces units`. -/
def exactDigits (units : Nat) : Nat :=
  units / 2 ^ (1074 - exactPlaces units) * 5 ^ exactPlaces units

/-- Does `n / 10 ^ places` round to the magnitude? -/
def readsBack (units places n : Nat) : Bool :=
  nearest (n * unitsOfOne) (10 ^ places) == units

/-- The neighbour of `exact` among the multiples of `step` that is to be written, if one of them
reads back. -/
def neighbour? (reads : Nat → Bool) (exact step : Nat) : Option Nat :=
  let low := exact / step * step
  let high := low + step
  match reads low, reads high with
  | true, true => some (if exact - low < high - exact then low else high)
  | true, false => some low
  | false, true => some high
  | false, false => none

/-- The shortest decimal of a magnitude, times `10 ^ exactPlaces units`. One to seventeen digits
are tried; should none read back, the exact value stands. -/
def shortest (units : Nat) : Nat :=
  let places := exactPlaces units
  let exact := exactDigits units
  let width := (Nat.toDigits 10 exact).length
  ((List.range 17).findSome? fun dropped =>
    neighbour? (readsBack units places) exact (10 ^ (width - (dropped + 1)))).getD exact

/-- The digits before and after the point, without trailing zeros. -/
def shortestDigits (units : Nat) : List Char × List Char :=
  (Numeral.splitAtPoint (exactPlaces units) (shortest units)).map id Numeral.trimTrailingZeros

def signChars (negative : Bool) : List Char := if negative then ['-'] else []

def nanChars : List Char := "NaN".toList

def infinityChars : List Char := "inf".toList

/-- The digits before and after the point with a point between them, at least one on each side. -/
def pointed (digits : List Char × List Char) : List Char :=
  digits.1 ++ '.' :: (if digits.2.isEmpty then ['0'] else digits.2)

/-- The same without a point where no digit is behind it. -/
def unpointed (digits : List Char × List Char) : List Char :=
  digits.1 ++ (if digits.2.isEmpty then [] else '.' :: digits.2)

/-- The same digits with the point behind the first one that counts, and the power of ten that
belongs to this one. -/
def scientific (digits : List Char × List Char) : List Char :=
  let all := digits.1 ++ digits.2
  let exponent : Int := digits.1.length - 1 - (all.takeWhile (· == '0')).length
  let mantissa := match Numeral.trimTrailingZeros (all.dropWhile (· == '0')) with
    | [] => ['0']
    | first :: rest => first :: unpointed ([], rest)
  mantissa ++ 'e' :: (toString exponent).toList

/-- Positional, with a point, but for the magnitudes from `1e16` up and those below `1e-4`, zero
apart, which are written with an exponent. -/
def variableChars : Double → List Char
  | .nan => nanChars
  | .infinity negative => signChars negative ++ infinityChars
  | .finite negative units _ =>
    signChars negative ++
      if units = 0 ∨ unitsOfOne ≤ units * 10 ^ 4 ∧ units < 10 ^ 16 * unitsOfOne then
        pointed (shortestDigits units)
      else scientific (shortestDigits units)

/-- Always positional; a whole number has no point. -/
def briefChars : Double → List Char
  | .nan => nanChars
  | .infinity negative => signChars negative ++ infinityChars
  | .finite negative units _ => signChars negative ++ unpointed (shortestDigits units)

def isExponentMark (c : Char) : Bool := c == 'e' || c == 'E'

/-- Positional and with a point, whatever the magnitude: where the text would have an exponent, the
brief one stands instead, with a point put to it if it has none. -/
def chars (x : Double) : List Char :=
  if !x.isFinite || !x.variableChars.any isExponentMark then x.variableChars
  else if x.briefChars.contains '.' then x.briefChars
  else x.briefChars ++ ['.', '0']

def text (x : Double) : String := String.ofList x.chars

def briefText (x : Double) : String := String.ofList x.briefChars

end TagTemplate.Double
