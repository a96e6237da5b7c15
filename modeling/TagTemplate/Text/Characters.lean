import TagTemplate.Text.Alphanumeric
import TagTemplate.Text.NonPrinting

/-! Classes of characters, as ascending lists of closed ranges of code points, and text between
double quotes in a message, so that every character of it can be seen. -/

namespace TagTemplate.Text

/-! ## Classes -/

/-- Looks no further than the first range that lies above the code point. -/
def inRanges : List (Nat × Nat) → Nat → Bool
  | [], _ => false
  | (low, high) :: rest, n => low ≤ n && (n ≤ high || inRanges rest n)

/-- The Unicode property White_Space, 25 code points. -/
def blankRanges : List (Nat × Nat) :=
  [(0x9, 0xD), (0x20, 0x20), (0x85, 0x85), (0xA0, 0xA0), (0x1680, 0x1680), (0x2000, 0x200A),
   (0x2028, 0x2029), (0x202F, 0x202F), (0x205F, 0x205F), (0x3000, 0x3000)]

def isBlank (c : Char) : Bool := inRanges blankRanges c.toNat

def isAlphanumeric (c : Char) : Bool := inRanges alphanumericRanges c.toNat

def isNonPrinting (c : Char) : Bool := inRanges nonPrintingRanges c.toNat

/-! ## Text in quotes -/

/-- Six characters have a short escape; what does not print is written by its code point in lower
case hexadecimal. -/
def shownChar (c : Char) : List Char :=
  if c = '\x00' then ['\\', '0']
  else if c = '\t' then ['\\', 't']
  else if c = '\n' then ['\\', 'n']
  else if c = '\r' then ['\\', 'r']
  else if c = '"' then ['\\', '"']
  else if c = '\\' then ['\\', '\\']
  else if isNonPrinting c then ['\\', 'u', '{'] ++ Nat.toDigits 16 c.toNat ++ ['}']
  else [c]

def quoted (s : String) : String :=
  String.ofList ('"' :: s.toList.flatMap shownChar ++ ['"'])

end TagTemplate.Text
