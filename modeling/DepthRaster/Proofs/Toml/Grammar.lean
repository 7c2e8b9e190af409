import DepthRaster.Numeric.Written
import DepthRaster.Toml.Text
import DepthRaster.Toml.Value
import Mathlib.Algebra.Group.Nat.Defs
/-!
# What parsers have to do

A part of the language, told by its texts and values alone: strings on one line, whole numbers of 64
bits with a sign, other numbers, truth values, and tables with a header each. A parser is asked to
accept a document of such tables, in whatever form it keeps them, and to refuse a text in which a
key has no value.
-/

namespace DepthRaster.Toml

open Numeric.Written (asLiteral)

/-! ## Strings -/

/-- The characters between the marks of a string, and the text they stand for. -/
inductive Spells : List Char → List Char → Prop
  | nil : Spells [] []
  | plain {c body text} (hc : isTextChar c = true) (hquote : c ≠ '"') (hslash : c ≠ '\\')
      (rest : Spells body text) : Spells (c :: body) (c :: text)
  | escaped {letter c body text} (h : escaped? letter = some c) (rest : Spells body text) :
      Spells ('\\' :: letter :: body) (c :: text)

/-- What may not follow a backslash: a letter that stands for nothing, or the mark of a character
number before what is no digit. -/
inductive IsBadEscape : List Char → Prop
  | letter {letter rest} (h : escaped? letter = none) (hshort : letter ≠ 'u')
      (hlong : letter ≠ 'U') : IsBadEscape (letter :: rest)
  | number {c rest} (h : hexValue? c = none) : IsBadEscape ('u' :: c :: rest)

def Misspells (body : List Char) : Prop :=
  ∃ start text rest, Spells start text ∧ IsBadEscape rest ∧ body = start ++ '\\' :: rest

/-! ## Values -/

/-- A text and the value it stands for. Numbers with a fraction are those that are written as
literals, which includes the infinities. -/
inductive Denotes : List Char → Value → Prop
  | string {body text} (h : Spells body text) :
      Denotes ('"' :: (body ++ ['"'])) (.string (String.ofList text))
  | integer {n : Nat} (h : n < 2 ^ 63) : Denotes (Nat.toDigits 10 n) (.integer (Int64.ofInt n))
  | float {x : Float} (h : x.isNaN = false) : Denotes (asLiteral x).toList (.float x)
  | yes : Denotes "true".toList (.boolean true)
  | no : Denotes "false".toList (.boolean false)

def namedValues : List (List Char) := ["true", "false", "inf", "nan"].map String.toList

/-- A text that stands for no value. -/
inductive DenotesNothing : List Char → Prop
  | string {body} (h : Misspells body) : DenotesNothing ('"' :: (body ++ ['"']))
  | integer {n : Nat} (h : 2 ^ 63 ≤ n) : DenotesNothing (Nat.toDigits 10 n)
  | word {word} (hne : word ≠ []) (hletters : ∀ c ∈ word, c.isAlpha = true)
      (h : word ∉ namedValues) : DenotesNothing word

/-! ## Lines -/

/-- A key that needs no marks. -/
structure IsBareKey (key : List Char) : Prop where
  ne_nil : key ≠ []
  chars : ∀ c ∈ key, isKeyChar c = true

instance (key : List Char) : Decidable (IsBareKey key) :=
  decidable_of_iff (key ≠ [] ∧ key.all isKeyChar = true)
    ⟨fun h => ⟨h.1, List.all_eq_true.mp h.2⟩, fun h => ⟨h.ne_nil, List.all_eq_true.mpr h.chars⟩⟩

inductive Line where
  | header (title : List Char)
  | pair (key text : List Char) (value : Value)
  /-- A comment, with what follows its mark. -/
  | comment (text : List Char)
  | blank

namespace Line

def chars : Line → List Char
  | header title => '[' :: (title ++ ']' :: ['\n'])
  | pair key text _ => key ++ " = ".toList ++ text ++ ['\n']
  | comment text => '#' :: (text ++ ['\n'])
  | blank => ['\n']

def IsWellFormed : Line → Prop
  | header title => IsBareKey title
  | pair key text value => IsBareKey key ∧ Denotes text value
  | comment text => ∀ c ∈ text, isTextChar c = true
  | blank => True

/-- A key with a text that is no value. -/
def IsBroken : Line → Prop
  | pair key text _ => IsBareKey key ∧ DenotesNothing text
  | _ => False

def toEntry : Line → Option (String × Value)
  | pair key _ value => some (String.ofList key, value)
  | _ => none

def isHeader : Line → Bool
  | header _ => true
  | _ => false

/-- Whether a line adds nothing to a document. -/
def isFiller : Line → Bool
  | comment _ => true
  | blank => true
  | _ => false

end Line

/-! ## Documents -/

structure Block where
  title : String
  lines : List Line

namespace Block

def toLines (block : Block) : List Line := .header block.title.toList :: block.lines

def entries (block : Block) : Entries := block.lines.filterMap Line.toEntry

structure IsWellFormed (block : Block) : Prop where
  title : IsBareKey block.title.toList
  lines : ∀ line ∈ block.lines, line.IsWellFormed
  inner : ∀ line ∈ block.lines, line.isHeader = false
  keys : (block.entries.map Prod.fst).Nodup

end Block

/-- Lines that add nothing, and then blocks. -/
structure Document where
  preamble : List Line
  blocks : List Block

namespace Document

def lines (document : Document) : List Line :=
  document.preamble ++ document.blocks.flatMap Block.toLines

structure IsWellFormed (document : Document) : Prop where
  preamble : ∀ line ∈ document.preamble, line.IsWellFormed ∧ line.isFiller = true
  blocks : ∀ block ∈ document.blocks, block.IsWellFormed
  titles : (document.blocks.map Block.title).Nodup

end Document

/-- A value that has a table for each block of a document, with the values of its keys and of no
others. Their order and how the tables came to be do not matter. -/
def Value.Holds (value : Value) (document : Document) : Prop :=
  ∃ entries, value.entries? = some entries ∧ ∀ block ∈ document.blocks,
    ∃ table inner, entries.lookup block.title = some table ∧ table.entries? = some inner ∧
      ∀ key, inner.lookup key = block.entries.lookup key

/-! ## Parsers -/

/-- Every well-formed document is read as what it says. -/
def Accepts (parse : Parser) : Prop :=
  ∀ (text : String) (document : Document), text.toList = document.lines.flatMap Line.chars →
    document.IsWellFormed → ∃ value, parse text = some value ∧ value.Holds document

/-- Lines that are well-formed, but for some keys without a value, are no document. -/
def Refuses (parse : Parser) : Prop :=
  ∀ (text : String) (lines : List Line), text.toList = lines.flatMap Line.chars →
    (∀ line ∈ lines, line.IsWellFormed ∨ line.IsBroken) → (∃ line ∈ lines, line.IsBroken) →
      parse text = none

end DepthRaster.Toml
