import DepthRaster.Toml.Atom
/-!
# The reserved key

A table whose first key is reserved stands for a date and a time, which are the text at that key.
Other keys of such a table are not looked at. The text is read more freely than dates and times in
documents are: an hour may be 24, and a distance from the common time may be up to a day in any
number of minutes.
-/

namespace DepthRaster.Toml

/-- The key of tables that stand for dates and times. -/
def reservedKey : String := "$__toml_private_datetime"

def clock? (cs : List Char) : Option (Nat × Nat) := do
  let (hours, cs) ← fixedDigits 2 cs
  match cs with
  | ':' :: cs =>
    let (minutes, cs) ← fixedDigits 2 cs
    if cs.isEmpty then some (hours, minutes) else none
  | _ => none

def isFreeOffset : List Char → Bool
  | [] => true
  | ['Z'] => true
  | ['z'] => true
  | sign :: cs =>
    (sign = '+' || sign = '-') && (clock? cs).any fun (hours, minutes) =>
      hours * 60 + minutes ≤ 24 * 60

/-- Whether a text is a date, a time of day, or both with a letter or a space between them. -/
def isFreeDateTime (cs : List Char) : Bool :=
  if afterTime 24 cs = some [] then true
  else match afterDate cs with
    | some [] => true
    | some (mark :: time) =>
      (mark = 'T' || mark = 't' || mark = ' ') && (afterTime 24 time).any isFreeOffset
    | none => false

def Value.asDateTime? : Value → Option Value
  | .string text => if isFreeDateTime text.toList then some (.dateTime text) else none
  | _ => none

/-- What a table is: the date and time of its reserved key, or else a table of its entries, once
these are settled. -/
def Value.ofTable (build : Entries → Value) (settled : Option Entries) : Entries → Option Value
  | (key, value) :: _ => if key = reservedKey then value.asDateTime? else settled.map build
  | [] => settled.map build

mutual

/-- Puts dates and times in the place of tables that stand for them, in a value of any depth. There
is no value when such a table holds something else. -/
def Value.settle : Value → Option Value
  | .array items => (settleItems items).map .array
  | .inlineTable entries => Value.ofTable .inlineTable (settleEntries entries) entries
  | .table origin entries => Value.ofTable (.table origin) (settleEntries entries) entries
  | .tables items => (settleTables items).map .array
  | value => some value

def settleItems : List Value → Option (List Value)
  | [] => some []
  | value :: rest => return (← value.settle) :: (← settleItems rest)

def settleEntries : List (String × Value) → Option (List (String × Value))
  | [] => some []
  | (key, value) :: rest => return (key, ← value.settle) :: (← settleEntries rest)

def settleTables : List (List (String × Value)) → Option (List Value)
  | [] => some []
  | entries :: rest =>
    return (← Value.ofTable (.table .header) (settleEntries entries) entries) ::
      (← settleTables rest)

end

end DepthRaster.Toml
