import TagTemplate.Double.Rounding

/-! Arithmetic on binary64 numbers: the exact result, rounded once. -/

namespace TagTemplate.Double

def ofInt (n : Int) : Double := ofRatio (n < 0) (n.natAbs * unitsOfOne) 1

/-- Opposite numbers cancel to plus zero; only two minus zeros add up to minus zero. -/
def add : Double → Double → Double
  | .nan, _ | _, .nan => .nan
  | .infinity s, .infinity t => if s = t then .infinity s else .nan
  | .infinity s, .finite .. => .infinity s
  | .finite .., .infinity t => .infinity t
  | .finite s m _, .finite t n _ =>
    let sum := signed s m + signed t n
    if sum = 0 then .finite (s && t) 0 fits_zero else ofRatio (sum < 0) sum.natAbs 1

def sub (x y : Double) : Double := add x (neg y)

def mul : Double → Double → Double
  | .nan, _ | _, .nan => .nan
  | .infinity s, .infinity t => .infinity (s != t)
  | .infinity s, .finite t n _ => if n = 0 then .nan else .infinity (s != t)
  | .finite s m _, .infinity t => if m = 0 then .nan else .infinity (s != t)
  | .finite s m _, .finite t n _ => ofRatio (s != t) (m * n) unitsOfOne

def div : Double → Double → Double
  | .nan, _ | _, .nan => .nan
  | .infinity _, .infinity _ => .nan
  | .infinity s, .finite t _ _ => .infinity (s != t)
  | .finite s _ _, .infinity t => .finite (s != t) 0 fits_zero
  | .finite s m _, .finite t n _ =>
    if n = 0 then
      if m = 0 then .nan else .infinity (s != t)
    else ofRatio (s != t) (m * unitsOfOne) n

/-- Square and multiply from the lowest bit of the exponent: `acc * x ^ n`, rounded at each
product, and no square is taken after the last bit. -/
def mulPow (acc x : Double) (n : Nat) : Double :=
  let acc := if n % 2 = 1 then mul acc x else acc
  if n / 2 = 0 then acc else mulPow acc (mul x x) (n / 2)
termination_by n
decreasing_by omega

def pow (x : Double) (n : Nat) : Double := mulPow one x n

end TagTemplate.Double
