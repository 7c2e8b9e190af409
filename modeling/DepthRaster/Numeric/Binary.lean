/-!
# Binary floating-point numbers as exact values

A bit pattern of a binary interchange format stands for a sign, a whole mantissa and a power of two,
or for an infinity, or for no number at all. Rounding to whole numbers is done on that reading, in
exact arithmetic, so nothing about it depends on how a processor rounds.
-/

namespace DepthRaster.Numeric

inductive Binary where
  | notANumber
  | infinite (negative : Bool)
  /-- The number `± mantissa * 2 ^ exponent`. -/
  | finite (negative : Bool) (mantissa : Nat) (exponent : Int)
deriving DecidableEq, Repr

/-- The layout of a binary interchange format below its sign bit. -/
structure BinaryLayout where
  fractionBits : UInt64
  exponentBits : UInt64

def BinaryLayout.single : BinaryLayout := ⟨23, 8⟩

def BinaryLayout.double : BinaryLayout := ⟨52, 11⟩

namespace Binary

/-- Reads a bit pattern: the exponent field all ones marks infinities and non-numbers, all zeros the
numbers without a leading one. -/
@[inline] def ofBits (layout : BinaryLayout) (bits : UInt64) : Binary :=
  let top := ((1 : UInt64) <<< layout.exponentBits) - 1
  let fraction := bits &&& (((1 : UInt64) <<< layout.fractionBits) - 1)
  let field := (bits >>> layout.fractionBits) &&& top
  let negative := (bits >>> (layout.fractionBits + layout.exponentBits)) &&& 1 == 1
  let unit : Int := -((top >>> 1).toNat + layout.fractionBits.toNat : Nat)
  if field == top then
    if fraction == 0 then infinite negative else notANumber
  else if field == 0 then
    finite negative fraction.toNat (unit + 1)
  else
    finite negative (fraction.toNat + 1 <<< layout.fractionBits.toNat) (unit + field.toNat)

def ofFloat (x : Float) : Binary := ofBits .double x.toBits

def ofSingle (x : Float32) : Binary := ofBits .single x.toBits.toUInt64

def powerOfTwo (exponent : Int) : Float :=
  Float.ofBits ((exponent + 1023).toNat.toUInt64 <<< 52)

/-- The double-precision number of a value. Exact for every value of single precision: its mantissa
fits, and scaling by a power of two loses nothing. -/
def toFloat : Binary → Float
  | notANumber => Float.ofBits 0x7FF8000000000000
  | infinite negative => Float.ofBits (if negative then 0xFFF0000000000000 else 0x7FF0000000000000)
  | finite negative mantissa exponent =>
    let magnitude := Float.ofNat mantissa * powerOfTwo exponent
    if negative then -magnitude else magnitude

/-- `mantissa * 2 ^ exponent` to the nearest whole number, a half going up. -/
def nearest (mantissa : Nat) : Int → Nat
  | .ofNat k => mantissa <<< k
  | .negSucc k => ((mantissa >>> k) + 1) >>> 1

/-- The nearest whole number, halves going away from zero. -/
@[inline] def round : Binary → Binary
  | finite negative mantissa exponent => finite negative (nearest mantissa exponent) 0
  | value => value

def wholePart (mantissa : Nat) : Int → Nat
  | .ofNat k => mantissa <<< k
  | .negSucc k => mantissa >>> (k + 1)

/-- The whole part, toward zero, between two bounds; what is no number gives zero. -/
@[inline] def truncateWithin (low high : Int) : Binary → Int
  | notANumber => 0
  | infinite negative => if negative then low else high
  | finite negative mantissa exponent =>
    let magnitude : Int := wholePart mantissa exponent
    max low (min high (if negative then -magnitude else magnitude))

def roundWithin (low high : Int) (value : Binary) : Int := value.round.truncateWithin low high

end Binary

end DepthRaster.Numeric
