import TagTemplate.Double.Rounding
import TagTemplate.Numeral

/-! Decimal numerals and the binary64 numbers nearest to them. -/

namespace TagTemplate

/-- The number `mantissa * 10 ^ exponent`, with a sign that zero keeps. -/
structure Decimal where
  negative : Bool
  mantissa : Nat
  exponent : Int
deriving DecidableEq

namespace Decimal

/-- A sign, digits with or without a point among or around them, and an exponent; all but one
digit may be missing. -/
def ofChars? (cs : List Char) : Option Decimal :=
  let (negative, body) := Numeral.splitSign cs
  let whole := body.takeWhile Char.isDigit
  let (fraction, tail) := match body.dropWhile Char.isDigit with
    | '.' :: rest => (rest.takeWhile Char.isDigit, rest.dropWhile Char.isDigit)
    | rest => ([], rest)
  let scaled (exponent : Int) : Decimal :=
    ⟨negative, Numeral.value (whole ++ fraction), exponent - fraction.length⟩
  if whole.isEmpty && fraction.isEmpty then none
  else match tail with
    | [] => some (scaled 0)
    | 'e' :: exponent | 'E' :: exponent => (Numeral.int? exponent).map scaled
    | _ => none

/-- The nearest binary64 number. The middle cases only keep the powers small: a value from
`10 ^ 310` up is infinite, and one of at most half a unit is zero. -/
def toDouble (d : Decimal) : Double :=
  if d.mantissa = 0 then .finite d.negative 0 Double.fits_zero
  else if 310 ≤ d.exponent then .infinity d.negative
  else if d.mantissa.log2 + 1 + 3 * d.exponent ≤ -1075 then .finite d.negative 0 Double.fits_zero
  else .ofRatio d.negative (d.mantissa * 10 ^ d.exponent.toNat * Double.unitsOfOne)
    (10 ^ (-d.exponent).toNat)

end Decimal

end TagTemplate
