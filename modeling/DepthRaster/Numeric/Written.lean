import DepthRaster.Numeric.Shortest
/-!
# Written numbers

Two ways to write a double-precision number, both with its shortest digits: plainly, as messages do,
and as a literal, which shows that it is not a whole-number literal.
-/

namespace DepthRaster.Numeric.Written

structure Style where
  /-- Whole numbers keep a point and a zero. -/
  markWhole : Bool
  /-- Whether a number whose leading digit stands for this power of ten is written out. Others are
  written with an exponent. -/
  writtenOut : Int → Bool

/-- Messages write every number out and leave whole numbers bare. -/
def message : Style := ⟨false, fun _ => true⟩

/-- Literals write numbers out from one ten-thousandth up to below ten to the sixteenth. -/
def literal : Style := ⟨true, fun power => decide (-4 ≤ power) && decide (power < 16)⟩

/-- The digits of a number, most significant first. -/
def digitsOf (n : Nat) : List Char := Nat.toDigits 10 n

def trimZeros (digits : List Char) : List Char := (digits.reverse.dropWhile (· = '0')).reverse

def positional (markWhole : Bool) (ds : List Char) (exponent : Int) : List Char :=
  let whole : Int := ds.length + exponent
  if 0 ≤ exponent then
    ds ++ List.replicate exponent.toNat '0' ++ (if markWhole then ".0".toList else [])
  else if 0 < whole then
    ds.take whole.toNat ++ '.' :: ds.drop whole.toNat
  else
    "0.".toList ++ List.replicate (-whole).toNat '0' ++ ds

def scientific (ds : List Char) (power : Int) : List Char :=
  let fraction := ds.drop 1
  ds.take 1 ++ (if fraction.isEmpty then [] else '.' :: fraction) ++ 'e' :: (toString power).toList

def magnitude (style : Style) (d : Decimal) : List Char :=
  let all := digitsOf d.digits
  let ds := trimZeros all
  let exponent : Int := d.exponent + (all.length - ds.length : Nat)
  let power : Int := exponent + ds.length - 1
  if style.writtenOut power then positional style.markWhole ds exponent else scientific ds power

def chars (style : Style) : Binary → List Char
  | .notANumber => "NaN".toList
  | .infinite negative => (if negative then ['-'] else []) ++ "inf".toList
  | .finite negative mantissa exponent =>
    (if negative then ['-'] else []) ++
      if mantissa = 0 then (if style.markWhole then "0.0".toList else ['0'])
      else magnitude style (Shortest.decimal mantissa exponent)

def inMessage (x : Float) : String := String.ofList (chars message (Binary.ofFloat x))

def asLiteral (x : Float) : String := String.ofList (chars literal (Binary.ofFloat x))

end DepthRaster.Numeric.Written
