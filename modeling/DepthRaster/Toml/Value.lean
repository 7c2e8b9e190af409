/-!
# TOML values and tables

A document is a table of tables. How a table came to be decides who may still add to it: a header
opens each table once, dotted keys go on extending the tables they made, and a value written in one
piece is closed.
-/

namespace DepthRaster.Toml

inductive Origin where
  /-- A header, or the document itself. -/
  | header
  /-- A longer header, whose first keys pass through it. -/
  | implied
  /-- A dotted key. -/
  | dotted
deriving DecidableEq, Repr

inductive Value where
  | string (text : String)
  | integer (n : Int64)
  | float (x : Float)
  | boolean (b : Bool)
  | dateTime (text : String)
  | array (items : List Value)
  /-- A table in braces. -/
  | inlineTable (entries : List (String × Value))
  | table (origin : Origin) (entries : List (String × Value))
  /-- An array that headers in double brackets add tables to. -/
  | tables (items : List (List (String × Value)))

/-- Keys with their values. No key comes twice. -/
abbrev Entries := List (String × Value)

/-- What reads the text of a document, if it is one. -/
abbrev Parser := String → Option Value

def Value.entries? : Value → Option Entries
  | .inlineTable entries => some entries
  | .table _ entries => some entries
  | _ => none

namespace Entries

def replace (entries : Entries) (key : String) (value : Value) : Entries :=
  entries.map fun entry => if entry.1 = key then (key, value) else entry

def addNew (entries : Entries) (key : String) (value : Value) : Option Entries :=
  match entries.lookup key with
  | some _ => none
  | none => some (entries ++ [(key, value)])

/-- Changes the table that a path of keys leads to, making tables that are missing. Of an array of
tables the last one is meant. A dotted path does not enter tables with a header of their own, and no
path enters other values. -/
def update (dotted : Bool) (change : Origin → Entries → Option Entries) :
    Origin → List String → Entries → Option Entries
  | origin, [], entries => change origin entries
  | _, key :: path, entries =>
    match entries.lookup key with
    | none => do
      let origin : Origin := if dotted then .dotted else .implied
      let inner ← update dotted change origin path []
      return entries ++ [(key, .table origin inner)]
    | some (.table origin inner) =>
      if dotted && decide (origin = .header) then none
      else do
        let inner ← update dotted change origin path inner
        return replace entries key (.table origin inner)
    | some (.tables items) =>
      match items.getLast? with
      | none => none
      | some last => do
        let last ← update dotted change .header path last
        return replace entries key (.tables (items.dropLast ++ [last]))
    | some _ => none

/-- Adds a value at a dotted key. The last table on the way must be one that dotted keys made, if
there is one. -/
def addDotted (entries : Entries) (path : List String) (key : String) (value : Value) :
    Option Entries :=
  update true (fun origin inner =>
      if decide (origin = .dotted) == path.isEmpty then none else addNew inner key value)
    .header path entries

/-- Opens the table of a header, which becomes the last one where it stands. It must be new, or
implied by headers before it. -/
def openTable (entries : Entries) (path : List String) (key : String) : Option Entries :=
  update false (fun _ inner =>
      match inner.lookup key with
      | none => some (inner ++ [(key, .table .header [])])
      | some (.table .implied old) =>
        some (inner.filter (·.1 ≠ key) ++ [(key, .table .header old)])
      | some _ => none)
    .header path entries

/-- Adds a table to an array of tables. The array must be new, or made by such headers. -/
def openArrayTable (entries : Entries) (path : List String) (key : String) : Option Entries :=
  update false (fun _ inner =>
      match inner.lookup key with
      | none => some (inner ++ [(key, .tables [[]])])
      | some (.tables items) => some (replace inner key (.tables (items ++ [[]])))
      | some _ => none)
    .header path entries

end Entries

end DepthRaster.Toml
