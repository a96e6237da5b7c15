import TagTemplate.Double.Arithmetic
import TagTemplate.Double.Text
import TagTemplate.Fault

/-! Numbers: 32-bit integers and doubles. Two integers give the exact integer or an overflow,
never a wrapped one; any other pair is computed in doubles. -/

namespace TagTemplate

inductive Operation where
  | add
  | subtract
  | multiply
  | divide
  | power
deriving DecidableEq

namespace Operation

def symbol : Operation → Char
  | .add => '+'
  | .subtract => '-'
  | .multiply => '*'
  | .divide => '/'
  | .power => '^'

def ofSymbol? : Char → Option Operation
  | '+' => some .add
  | '-' => some .subtract
  | '*' => some .multiply
  | '/' => some .divide
  | '^' => some .power
  | _ => none

end Operation

inductive Number where
  | integer (n : Int32)
  | double (x : Double)
deriving DecidableEq

namespace Number

def toDouble : Number → Double
  | .integer n => .ofInt n.toInt
  | .double x => x

def isZero : Number → Bool
  | .integer n => n == 0
  | .double x => x.isZero

def text : Number → String
  | .integer n => toString n.toInt
  | .double x => x.text

/-- The 32-bit integer equal to `n`, if there is one. -/
def int32? (n : Int) : Option Int32 :=
  if -2147483648 ≤ n ∧ n < 2147483648 then some (.ofInt n) else none

def int32Mul? (a b : Int32) : Option Int32 := int32? (a.toInt * b.toInt)

/-- Square and multiply from the lowest bit of the exponent: `acc * base ^ exponent`. Every product
on the way must be a 32-bit integer, and no square is taken after the last bit. -/
def int32MulPow? (acc base : Int32) (exponent : Nat) : Option Int32 := do
  let acc ← if exponent % 2 = 1 then int32Mul? acc base else some acc
  if exponent / 2 = 0 then some acc
  else int32MulPow? acc (← int32Mul? base base) (exponent / 2)
termination_by exponent
decreasing_by omega

def int32Pow? (base : Int32) (exponent : Nat) : Option Int32 := int32MulPow? 1 base exponent

def ofExact (op : Operation) (n : Option Int32) : Except Fault Number :=
  match n with
  | some n => .ok (.integer n)
  | none => .error (.overflow op.symbol)

def add : Number → Number → Except Fault Number
  | .integer a, .integer b => ofExact .add (int32? (a.toInt + b.toInt))
  | x, y => .ok (.double (x.toDouble.add y.toDouble))

def sub : Number → Number → Except Fault Number
  | .integer a, .integer b => ofExact .subtract (int32? (a.toInt - b.toInt))
  | x, y => .ok (.double (x.toDouble.sub y.toDouble))

def mul : Number → Number → Except Fault Number
  | .integer a, .integer b => ofExact .multiply (int32? (a.toInt * b.toInt))
  | x, y => .ok (.double (x.toDouble.mul y.toDouble))

/-- Integer quotients are truncated towards zero. -/
def div (x y : Number) : Except Fault Number :=
  if y.isZero then .error .divisionByZero
  else match x, y with
    | .integer a, .integer b => ofExact .divide (int32? (a.toInt.tdiv b.toInt))
    | x, y => .ok (.double (x.toDouble.div y.toDouble))

def pow (base : Number) (exponent : Nat) : Except Fault Number :=
  match base with
  | .integer a => ofExact .power (int32Pow? a exponent)
  | .double x => .ok (.double (x.pow exponent))

/-- An integer is compared with a double by its double. -/
def compare? : Number → Number → Option Ordering
  | .integer a, .integer b => some (compare a.toInt b.toInt)
  | x, y => x.toDouble.compare? y.toDouble

end Number

end TagTemplate
