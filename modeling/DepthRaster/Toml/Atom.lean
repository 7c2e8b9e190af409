import DepthRaster.Numeric.Scientific
import DepthRaster.Toml.Value
/-!
# TOML values of one word

Numbers, truth values, dates and times are runs of letters, digits and a few signs. A run is read as
a whole, so what stands for a value is told from its characters alone.
-/

namespace DepthRaster.Toml

open Numeric (Scientific)
open Numeric.Whole (isDigit ofDigits digitValue)

def isAtomChar (c : Char) : Bool :=
  (decide ('A' ≤ c) && decide (c ≤ 'Z')) || (decide ('a' ≤ c) && decide (c ≤ 'z')) || isDigit c ||
    c = '_' || c = '+' || c = '-' || c = '.' || c = ':'

/-! ## Numbers -/

def digitGroup (isBaseDigit : Char → Bool) : List Char → Option (List Char)
  | [] => none
  | c :: rest =>
    if isBaseDigit c then
      match rest with
      | [] => some [c]
      | '_' :: more => (digitGroup isBaseDigit more).map (c :: ·)
      | more => (digitGroup isBaseDigit more).map (c :: ·)
    else none

/-- The value of a digit in a base up to 16, and the base itself for other characters. -/
def baseDigit (base : Nat) (c : Char) : Nat :=
  let n :=
    if isDigit c then digitValue c
    else if 'a' ≤ c ∧ c ≤ 'f' then c.toNat - 87
    else if 'A' ≤ c ∧ c ≤ 'F' then c.toNat - 55
    else base
  if n < base then n else base

def signedWord? (n : Int) : Option Int64 :=
  if Int64.minValue.toInt ≤ n ∧ n ≤ Int64.maxValue.toInt then some (Int64.ofInt n) else none

def ofBase (base : Nat) (cs : List Char) : Option Int64 := do
  let ds ← digitGroup (fun c => baseDigit base c < base) cs
  let n := ds.foldl (fun n c => n * base + baseDigit base c) 0
  signedWord? n

def decimalDigits (cs : List Char) : Option (List Char) :=
  match cs with
  | '0' :: _ :: _ => none
  | cs => digitGroup isDigit cs

def ofDecimal (negative : Bool) (cs : List Char) : Option Int64 :=
  (decimalDigits cs).bind fun ds =>
    signedWord? (if negative then -(ofDigits ds : Int) else ofDigits ds)

def integer? (cs : List Char) : Option Int64 :=
  match cs with
  | '0' :: 'x' :: ds => ofBase 16 ds
  | '0' :: 'o' :: ds => ofBase 8 ds
  | '0' :: 'b' :: ds => ofBase 2 ds
  | cs => ofDecimal (Scientific.takeSign cs).1 (Scientific.takeSign cs).2

def isPowerMark (c : Char) : Bool := c = 'e' || c = 'E'

def power? (cs : List Char) : Option Int := do
  let (negative, body) := Scientific.takeSign cs
  let magnitude := ofDigits (← digitGroup isDigit body)
  return if negative then -(magnitude : Int) else magnitude

def scientific? (cs : List Char) : Option Scientific := do
  let (negative, body) := Scientific.takeSign cs
  let whole ← decimalDigits (body.takeWhile fun c => c != '.' && !isPowerMark c)
  match body.dropWhile fun c => c != '.' && !isPowerMark c with
  | '.' :: more =>
    let fraction ← digitGroup isDigit (more.takeWhile (!isPowerMark ·))
    let power ← match more.dropWhile (!isPowerMark ·) with
      | [] => some 0
      | _ :: digits => power? digits
    return ⟨negative, ofDigits (whole ++ fraction), power - fraction.length⟩
  | _ :: digits => return ⟨negative, ofDigits whole, ← power? digits⟩
  | [] => none

/-- A floating-point number. Numbers too large for one are refused unless they are negative. -/
def float? (cs : List Char) : Option Float :=
  let (negative, body) := Scientific.takeSign cs
  if body = "inf".toList then
    some (Float.ofBits (if negative then 0xFFF0000000000000 else 0x7FF0000000000000))
  else if body = "nan".toList then some (Float.ofBits 0x7FF8000000000000)
  else do
    let x := (← scientific? cs).toFloat
    if x == Float.ofBits 0x7FF0000000000000 then none else some x

/-! ## Dates and times -/

def fixedDigits (count : Nat) (cs : List Char) : Option (Nat × List Char) :=
  let ds := cs.take count
  if ds.length = count && ds.all isDigit then some (ofDigits ds, cs.drop count) else none

def daysOfMonth (year month : Nat) : Nat :=
  if month = 2 then
    (if year % 4 = 0 ∧ (year % 100 ≠ 0 ∨ year % 400 = 0) then 29 else 28)
  else if month = 4 ∨ month = 6 ∨ month = 9 ∨ month = 11 then 30
  else 31

def afterDate (cs : List Char) : Option (List Char) := do
  let (year, cs) ← fixedDigits 4 cs
  match cs with
  | '-' :: cs =>
    let (month, cs) ← fixedDigits 2 cs
    match cs with
    | '-' :: cs =>
      let (day, cs) ← fixedDigits 2 cs
      if 1 ≤ month ∧ month ≤ 12 ∧ 1 ≤ day ∧ day ≤ daysOfMonth year month then some cs else none
    | _ => none
  | _ => none

def afterMinute (lastHour : Nat) (cs : List Char) : Option (List Char) := do
  let (hour, cs) ← fixedDigits 2 cs
  match cs with
  | ':' :: cs =>
    let (minute, cs) ← fixedDigits 2 cs
    if hour ≤ lastHour ∧ minute ≤ 59 then some cs else none
  | _ => none

def afterTime (lastHour : Nat) (cs : List Char) : Option (List Char) := do
  match ← afterMinute lastHour cs with
  | ':' :: cs =>
    let (second, cs) ← fixedDigits 2 cs
    if 60 < second then none
    else match cs with
      | '.' :: d :: more => if isDigit d then some (more.dropWhile isDigit) else none
      | cs => some cs
  | _ => none

def isOffset : List Char → Bool
  | [] => true
  | ['Z'] => true
  | ['z'] => true
  | '+' :: cs => afterMinute 23 cs = some []
  | '-' :: cs => afterMinute 23 cs = some []
  | _ => false

def isDate (cs : List Char) : Bool := afterDate cs = some []

def isZonedTime (cs : List Char) : Bool :=
  match afterTime 23 cs with
  | some rest => isOffset rest
  | none => false

def isDateTime (cs : List Char) : Bool :=
  if afterTime 23 cs = some [] then true
  else match afterDate cs with
    | some [] => true
    | some ('T' :: time) => isZonedTime time
    | some ('t' :: time) => isZonedTime time
    | _ => false

/-! ## All of them -/

def atom? (cs : List Char) : Option Value :=
  if cs = "true".toList then some (.boolean true)
  else if cs = "false".toList then some (.boolean false)
  else if isDateTime cs then some (.dateTime (String.ofList cs))
  else match float? cs with
    | some x => some (.float x)
    | none => (integer? cs).map .integer

/-- A value of one word, or a date and a time with a space between them. -/
def readAtom (cs : List Char) : Option (Value × List Char) := do
  let word := cs.takeWhile isAtomChar
  let rest := cs.dropWhile isAtomChar
  let value ← atom? word
  match rest with
  | ' ' :: more =>
    let time := more.takeWhile isAtomChar
    if isDate word && isZonedTime time then
      return (.dateTime (String.ofList (word ++ ' ' :: time)), more.dropWhile isAtomChar)
    else return (value, rest)
  | _ => return (value, rest)

end DepthRaster.Toml
