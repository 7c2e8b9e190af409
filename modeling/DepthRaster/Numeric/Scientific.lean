import DepthRaster.Numeric.Binary
import DepthRaster.Numeric.Whole
/-!
# Decimal numbers in text

A decimal number is a whole number times a power of ten. It is read as the nearest floating-point
number. Powers far outside the range of floating-point numbers are told by their exponents.
-/

namespace DepthRaster.Numeric

structure Scientific where
  negative : Bool
  digits : Nat
  exponent : Int
deriving DecidableEq, Repr

namespace Scientific

inductive Size where
  | zero
  | huge
  | ordinary

/-- Beyond 400 powers of ten every magnitude is too large or too small for any format here. -/
def size (s : Scientific) : Size :=
  if s.digits = 0 ∨ s.exponent < -400 - (s.digits.log2 : Int) then .zero
  else if 400 < s.exponent then .huge
  else .ordinary

def toFloat (s : Scientific) : Float :=
  let magnitude : Float := match s.size with
    | .zero => Float.ofBits 0
    | .huge => Float.ofBits 0x7FF0000000000000
    | .ordinary => Float.ofScientific s.digits (decide (s.exponent < 0)) s.exponent.natAbs
  if s.negative then -magnitude else magnitude

def toSingle (s : Scientific) : Float32 :=
  let magnitude : Float32 := match s.size with
    | .zero => Float32.ofBits 0
    | .huge => Float32.ofBits 0x7F800000
    | .ordinary => Float32.ofScientific s.digits (decide (s.exponent < 0)) s.exponent.natAbs
  if s.negative then -magnitude else magnitude

def takeSign : List Char → Bool × List Char
  | '-' :: cs => (true, cs)
  | '+' :: cs => (false, cs)
  | cs => (false, cs)

def exponentOf (cs : List Char) : Option Int :=
  let (negative, ds) := takeSign cs
  if ds.isEmpty || !ds.all Whole.isDigit then none
  else
    let n : Int := Whole.ofDigits ds
    some (if negative then -n else n)

/-- A plain number without a sign: digits with at most one point among or beside them, at least one
digit, and an optional exponent. -/
def ofPlain (negative : Bool) (cs : List Char) : Option Scientific := do
  let whole := cs.takeWhile Whole.isDigit
  let afterWhole := cs.dropWhile Whole.isDigit
  let (fraction, rest) := match afterWhole with
    | '.' :: more => (more.takeWhile Whole.isDigit, more.dropWhile Whole.isDigit)
    | _ => ([], afterWhole)
  if whole.isEmpty && fraction.isEmpty then none
  let exponent ← match rest with
    | [] => some 0
    | 'e' :: power => exponentOf power
    | 'E' :: power => exponentOf power
    | _ => none
  return ⟨negative, Whole.ofDigits (whole ++ fraction), exponent - fraction.length⟩

/-- Reads a word as a single-precision number: a plain number, or a name for infinity or for no
number in letters of any case, with an optional sign. -/
def readSingle (word : List Char) : Option Float32 :=
  let (negative, body) := takeSign word
  match String.ofList (body.map Char.toLower) with
  | "nan" => some (Float32.ofBits 0x7FC00000)
  | "inf" => some (Float32.ofBits (if negative then 0xFF800000 else 0x7F800000))
  | "infinity" => some (Float32.ofBits (if negative then 0xFF800000 else 0x7F800000))
  | _ => (ofPlain negative body).map toSingle

end Scientific

end DepthRaster.Numeric
