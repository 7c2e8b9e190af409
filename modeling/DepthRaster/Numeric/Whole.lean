/-!
# Whole numbers in text

Decimal digits with an optional sign, read from left to right up to a limit. The first character at
which reading fails decides the error.
-/

namespace DepthRaster.Numeric

inductive WholeError where
  | empty
  | invalidDigit
  | tooLarge
deriving DecidableEq, Repr

def WholeError.message : WholeError → String
  | empty => "cannot parse integer from empty string"
  | invalidDigit => "invalid digit found in string"
  | tooLarge => "number too large to fit in target type"

namespace Whole

def isDigit (c : Char) : Bool := decide ('0' ≤ c) && decide (c ≤ '9')

def digitValue (c : Char) : Nat := c.toNat - 48

def ofDigits (digits : List Char) : Nat := digits.foldl (fun n c => n * 10 + digitValue c) 0

def readOn (limit : Nat) : Nat → List Char → Except WholeError Nat
  | n, [] => .ok n
  | n, c :: rest =>
    if isDigit c then
      let next := n * 10 + digitValue c
      if limit < next then .error .tooLarge else readOn limit next rest
    else .error .invalidDigit

def readDigits (limit : Nat) : List Char → Except WholeError Nat
  | [] => .error .invalidDigit
  | cs => readOn limit 0 cs

def readUnsigned (limit : Nat) : List Char → Except WholeError Nat
  | [] => .error .empty
  | '+' :: cs => readDigits limit cs
  | cs => readDigits limit cs

def readSigned : List Char → Except WholeError Int
  | [] => .error .empty
  | '+' :: cs => (readDigits Int64.maxValue.toInt.toNat cs).map Int.ofNat
  | '-' :: cs => (readDigits Int64.minValue.toInt.natAbs cs).map fun n => -(n : Int)
  | cs => (readDigits Int64.maxValue.toInt.toNat cs).map Int.ofNat

end Whole

end DepthRaster.Numeric
