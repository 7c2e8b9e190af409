import DepthRaster.Numeric.Binary
/-!
# Shortest decimal digits

The decimal that stands for a floating-point number is the coarsest one that reads back as that
number: of all grids of multiples of a power of ten, the coarsest that has a point among the reals
which round to the number. Of two such points the nearer is taken, of two equally near the upper.
-/

namespace DepthRaster.Numeric

structure Decimal where
  digits : Nat
  exponent : Int
deriving DecidableEq, Repr

namespace Shortest

structure Fraction where
  numerator : Nat
  denominator : Nat

def Fraction.ofBinary (mantissa : Nat) : Int → Fraction
  | .ofNat k => ⟨mantissa <<< k, 1⟩
  | .negSucc k => ⟨mantissa, 1 <<< (k + 1)⟩

def Fraction.scaleDown (q : Fraction) : Int → Fraction
  | .ofNat k => ⟨q.numerator, q.denominator * Nat.pow 10 k⟩
  | .negSucc k => ⟨q.numerator * Nat.pow 10 (k + 1), q.denominator⟩

/-- Reals that round to one binary number: the number `center` and the two ends, in units of a
quarter of its last place. The ends belong to it when its mantissa is even. -/
structure Interval where
  lower : Nat
  center : Nat
  upper : Nat
  closed : Bool
  exponent : Int

/-- The reals that round to `mantissa * 2 ^ exponent`. Below a power of two numbers lie twice as
close, unless they are the smallest of all. -/
def Interval.around (mantissa : Nat) (exponent : Int) : Interval where
  lower := if mantissa = 1 <<< 52 ∧ -1074 < exponent then 4 * mantissa - 1 else 4 * mantissa - 2
  center := 4 * mantissa
  upper := 4 * mantissa + 2
  closed := mantissa % 2 = 0
  exponent := exponent - 2

def Interval.contains (i : Interval) (power : Int) (c : Nat) : Bool :=
  let below := (Fraction.ofBinary i.lower i.exponent).scaleDown power
  let above := (Fraction.ofBinary i.upper i.exponent).scaleDown power
  let scaledLow := c * below.denominator
  let scaledHigh := c * above.denominator
  if i.closed then
    decide (below.numerator ≤ scaledLow) && decide (scaledHigh ≤ above.numerator)
  else
    decide (below.numerator < scaledLow) && decide (scaledHigh < above.numerator)

def Interval.gridPoint (i : Interval) (power : Int) : Option Decimal :=
  let value := (Fraction.ofBinary i.center i.exponent).scaleDown power
  let floor := value.numerator / value.denominator
  let remainder := value.numerator % value.denominator
  let nearest := if value.denominator ≤ 2 * remainder then floor + 1 else floor
  let other := if value.denominator ≤ 2 * remainder then floor else floor + 1
  if i.contains power nearest then some ⟨nearest, power⟩
  else if i.contains power other then some ⟨other, power⟩
  else none

def topExponent (bits : Int) : Int := bits * 30103 / 100000 + 2

/-- The shortest decimal of the positive number `mantissa * 2 ^ exponent` of double precision.
Twenty five grids are enough, since seventeen digits tell any two such numbers apart. -/
def decimal (mantissa : Nat) (exponent : Int) : Decimal :=
  let interval := Interval.around mantissa exponent
  let top := topExponent (mantissa.log2 + 1 + exponent)
  ((List.range 25).findSome? fun (step : Nat) => interval.gridPoint (top - step)).getD
    ⟨mantissa, exponent⟩

end Shortest

end DepthRaster.Numeric
