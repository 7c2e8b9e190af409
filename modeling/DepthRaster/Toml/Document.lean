import DepthRaster.Toml.Text
import DepthRaster.Toml.Reserved
/-!
# TOML documents

Values in values, and the lines of a document: headers open tables, other lines add values to the
table that was opened last.
-/

namespace DepthRaster.Toml

/-! ## Values -/

/-- One or more items with commas between them. A comma after which no item follows is left. The
first argument bounds the number of items. -/
def readItems {α : Type} (item : Reader α) : Nat → Reader (List α)
  | 0, _ => none
  | fuel + 1, cs => do
    let (a, rest) ← item cs
    match rest with
    | ',' :: more =>
      match readItems item fuel more with
      | some (as, rest) => return (a :: as, rest)
      | none => return ([a], rest)
    | _ => return ([a], rest)

def readPadded {α : Type} (item : Reader α) : Reader α := fun cs => do
  let (a, rest) ← item (← dropFiller false cs)
  return (a, ← dropFiller false rest)

def readArray (value : Reader Value) : Reader Value := fun cs => do
  let (items, rest) := match readItems (readPadded value) cs.length cs with
    | some (items, ',' :: rest) => (items, rest)
    | some (items, rest) => (items, rest)
    | none => ([], cs)
  match ← dropFiller false rest with
  | ']' :: rest => return (.array items, rest)
  | _ => none

def readPair (value : Reader Value) : Reader ((List String × String) × Value) := fun cs => do
  let (key, rest) ← readKey cs
  match rest with
  | '=' :: rest =>
    let (v, rest) ← value (dropSpaces rest)
    return ((key, v), dropSpaces rest)
  | _ => none

def readInlineTable (value : Reader Value) : Reader Value := fun cs => do
  let (pairs, rest) := (readItems (readPair value) cs.length cs).getD ([], cs)
  match dropSpaces rest with
  | '\x7d' :: rest =>
    let entries ← pairs.foldlM (fun (entries : Entries) ((path, key), v) =>
      entries.addDotted path key v) []
    return (.inlineTable entries, rest)
  | _ => none

/-- A value. The first argument is the number of levels that values in it may have. -/
def readValue : Nat → Reader Value
  | levels, cs =>
    match cs with
    | '"' :: _ => (readString cs).map fun (text, rest) => (.string (String.ofList text), rest)
    | '\x27' :: _ => (readString cs).map fun (text, rest) => (.string (String.ofList text), rest)
    | '[' :: rest => match levels with
      | 0 => none
      | levels + 1 => readArray (readValue levels) rest
    | '\x7b' :: rest => match levels with
      | 0 => none
      | levels + 1 => readInlineTable (readValue levels) rest
    | cs => readAtom cs

/-! ## Lines -/

structure Progress where
  entries : Entries := []
  opened : List String := []

namespace Progress

def add (p : Progress) (path : List String) (key : String) (value : Value) : Option Progress := do
  let entries ← p.entries.update false (fun _ table => table.addDotted path key value) .header
    p.opened
  return { p with entries }

def openTable (p : Progress) (path : List String) (key : String) : Option Progress := do
  return ⟨← p.entries.openTable path key, path ++ [key]⟩

def openArrayTable (p : Progress) (path : List String) (key : String) : Option Progress := do
  return ⟨← p.entries.openArrayTable path key, path ++ [key]⟩

end Progress

def readLine (p : Progress) (cs : List Char) : Option (Progress × List Char) :=
  match cs with
  | '[' :: '[' :: rest => do
    let ((path, key), rest) ← readKey rest
    match rest with
    | ']' :: ']' :: rest => return (← p.openArrayTable path key, ← takeLineEnd rest)
    | _ => none
  | '[' :: rest => do
    let ((path, key), rest) ← readKey rest
    match rest with
    | ']' :: rest => return (← p.openTable path key, ← takeLineEnd rest)
    | _ => none
  | cs => do
    let (((path, key), value), rest) ← readPair (readValue maxNesting) cs
    return (← p.add path key value, ← takeLineEnd rest)

/-- Reads lines to the end of the text. The first argument bounds their number. -/
def readLines : Nat → Progress → List Char → Option Progress
  | 0, _, _ => none
  | fuel + 1, p, cs =>
    match dropSpaces cs with
    | [] => some p
    | '#' :: rest => do readLines fuel p (← takeLineEnd ('#' :: rest))
    | c :: rest =>
      match takeNewline (c :: rest) with
      | some rest => readLines fuel p rest
      | none => do
        let (p, rest) ← readLine p (c :: rest)
        readLines fuel p rest

def dropMark : List Char → List Char
  | '\uFEFF' :: rest => rest
  | cs => cs

/-- A document, which is a table unless it stands for a date and a time. -/
def parse : Parser := fun text => do
  let cs := dropMark text.toList
  let p ← readLines (cs.length + 1) {} cs
  (Value.table .header p.entries).settle

end DepthRaster.Toml
