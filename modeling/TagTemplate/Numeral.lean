/-! Decimal numerals: runs of digits read as naturals, and naturals written with a point. -/

namespace TagTemplate.Numeral

/-- The value of a run of ASCII digits. -/
def value (digits : List Char) : Nat := Nat.ofDigitChars 10 digits 0

/-- A leading sign, if any, and what follows it. -/
def splitSign : List Char → Bool × List Char
  | '-' :: rest => (true, rest)
  | '+' :: rest => (false, rest)
  | rest => (false, rest)

/-- An optional sign and at least one digit, nothing else. -/
def int? (cs : List Char) : Option Int :=
  let (negative, digits) := splitSign cs
  if digits.isEmpty || !digits.all Char.isDigit then none
  else some (if negative then -value digits else value digits)

/-- The digits of `n / 10 ^ places` before and after the point: at least one before it, exactly
`places` after it. -/
def splitAtPoint (places n : Nat) : List Char × List Char :=
  let digits := (Nat.toDigits 10 n).leftpad (places + 1) '0'
  digits.splitAt (digits.length - places)

def trimTrailingZeros (digits : List Char) : List Char :=
  (digits.reverse.dropWhile (· == '0')).reverse

end TagTemplate.Numeral
