/-!
# Blanks, strings and keys of TOML

Readers here take characters off the front of a list and return what is left. They return nothing
when the list does not begin with what they read.
-/

namespace DepthRaster.Toml

abbrev Reader (α : Type) := List Char → Option (α × List Char)

/-! ## Blanks and comments -/

def isSpace (c : Char) : Bool := c = ' ' || c = '\t'

def dropSpaces (cs : List Char) : List Char := cs.dropWhile isSpace

/-- Characters other than controls. A tab is allowed as well. -/
def isTextChar (c : Char) : Bool :=
  c = '\t' || (decide (' ' ≤ c) && c != '\x7F')

def takeNewline : List Char → Option (List Char)
  | '\n' :: rest => some rest
  | '\r' :: '\n' :: rest => some rest
  | _ => none

def takeLineEnd (cs : List Char) : Option (List Char) :=
  let atComment := dropSpaces cs
  let atEnd := match atComment with
    | '#' :: rest => rest.dropWhile isTextChar
    | rest => rest
  if atEnd.isEmpty then some [] else takeNewline atEnd

/-- Leaves out blanks, line ends and comments; comments must end with their line. -/
def dropFiller (inComment : Bool) : List Char → Option (List Char)
  | [] => if inComment then none else some []
  | '\n' :: rest => dropFiller false rest
  | '\r' :: '\n' :: rest => dropFiller false rest
  | c :: rest =>
    if inComment then (if isTextChar c then dropFiller true rest else none)
    else if isSpace c then dropFiller false rest
    else if c = '#' then dropFiller true rest
    else some (c :: rest)

/-! ## Strings -/

def hexValue? (c : Char) : Option Nat :=
  if '0' ≤ c ∧ c ≤ '9' then some (c.toNat - 48)
  else if 'a' ≤ c ∧ c ≤ 'f' then some (c.toNat - 87)
  else if 'A' ≤ c ∧ c ≤ 'F' then some (c.toNat - 55)
  else none

def scalar? (digits : List Char) : Option Char := do
  let values ← digits.mapM hexValue?
  let n := values.foldl (fun n d => n * 16 + d) 0
  if n.isValidChar then some (Char.ofNat n) else none

def escaped? : Char → Option Char
  | 'b' => some '\x08'
  | 't' => some '\t'
  | 'n' => some '\n'
  | 'f' => some '\x0c'
  | 'r' => some '\r'
  | '"' => some '"'
  | '\\' => some '\\'
  | _ => none

def cons (c : Char) : Option (List Char × List Char) → Option (List Char × List Char) :=
  Option.map fun (cs, rest) => (c :: cs, rest)

def basicBody : Reader (List Char)
  | [] => none
  | '"' :: rest => some ([], rest)
  | '\\' :: 'u' :: a :: b :: c :: d :: rest => do
    let ch ← scalar? [a, b, c, d]
    cons ch (basicBody rest)
  | '\\' :: 'U' :: a :: b :: c :: d :: e :: f :: g :: h :: rest => do
    let ch ← scalar? [a, b, c, d, e, f, g, h]
    cons ch (basicBody rest)
  | '\\' :: letter :: rest => do
    let ch ← escaped? letter
    cons ch (basicBody rest)
  | c :: rest => if isTextChar c && c != '\\' then cons c (basicBody rest) else none

def literalBody : Reader (List Char)
  | [] => none
  | '\x27' :: rest => some ([], rest)
  | c :: rest => if isTextChar c then cons c (literalBody rest) else none

/-- The rest of a string in three quotation marks. Up to two more marks before the closing ones
belong to it. A backslash at the end of a line joins the next line that is not blank. The first
argument bounds the number of steps. -/
def basicLines : Nat → Reader (List Char)
  | 0, _ => none
  | _ + 1, [] => none
  | _ + 1, '"' :: '"' :: '"' :: '"' :: '"' :: rest => some (['"', '"'], rest)
  | _ + 1, '"' :: '"' :: '"' :: '"' :: rest => some (['"'], rest)
  | _ + 1, '"' :: '"' :: '"' :: rest => some ([], rest)
  | fuel + 1, '\r' :: '\n' :: rest => cons '\n' (basicLines fuel rest)
  | fuel + 1, '\n' :: rest => cons '\n' (basicLines fuel rest)
  | fuel + 1, '\\' :: 'u' :: a :: b :: c :: d :: rest => do
    let ch ← scalar? [a, b, c, d]
    cons ch (basicLines fuel rest)
  | fuel + 1, '\\' :: 'U' :: a :: b :: c :: d :: e :: f :: g :: h :: rest => do
    let ch ← scalar? [a, b, c, d, e, f, g, h]
    cons ch (basicLines fuel rest)
  | fuel + 1, '\\' :: rest =>
    match takeNewline (dropSpaces rest) with
    | some next => basicLines fuel (dropBlankLines false next)
    | none =>
      match rest with
      | letter :: rest => do
        let ch ← escaped? letter
        cons ch (basicLines fuel rest)
      | [] => none
  | fuel + 1, c :: rest => if isTextChar c then cons c (basicLines fuel rest) else none
where
  /-- Leaves out blanks and line ends. A carriage return is held back until its line ends. -/
  dropBlankLines (held : Bool) : List Char → List Char
    | '\n' :: rest => dropBlankLines false rest
    | c :: rest =>
      if held then '\r' :: c :: rest
      else if c = '\r' then dropBlankLines true rest
      else if isSpace c then dropBlankLines false rest
      else c :: rest
    | [] => if held then ['\r'] else []

/-- The rest of a string in three apostrophes. Up to two more before the closing ones belong to
it. -/
def literalLines : Reader (List Char)
  | [] => none
  | '\x27' :: '\x27' :: '\x27' :: '\x27' :: '\x27' :: rest => some (['\x27', '\x27'], rest)
  | '\x27' :: '\x27' :: '\x27' :: '\x27' :: rest => some (['\x27'], rest)
  | '\x27' :: '\x27' :: '\x27' :: rest => some ([], rest)
  | '\r' :: '\n' :: rest => cons '\n' (literalLines rest)
  | '\n' :: rest => cons '\n' (literalLines rest)
  | c :: rest => if isTextChar c then cons c (literalLines rest) else none

def dropFirstNewline (cs : List Char) : List Char := (takeNewline cs).getD cs

def readString : Reader (List Char)
  | '"' :: '"' :: '"' :: rest =>
    let body := dropFirstNewline rest
    basicLines (body.length + 1) body
  | '"' :: rest => basicBody rest
  | '\x27' :: '\x27' :: '\x27' :: rest => literalLines (dropFirstNewline rest)
  | '\x27' :: rest => literalBody rest
  | _ => none

/-! ## Keys -/

def isKeyChar (c : Char) : Bool :=
  (decide ('A' ≤ c) && decide (c ≤ 'Z')) || (decide ('a' ≤ c) && decide (c ≤ 'z')) ||
    (decide ('0' ≤ c) && decide (c ≤ '9')) || c = '_' || c = '-'

def readSimpleKey : Reader String
  | '"' :: rest => (basicBody rest).map fun (cs, rest) => (String.ofList cs, rest)
  | '\x27' :: rest => (literalBody rest).map fun (cs, rest) => (String.ofList cs, rest)
  | cs =>
    let name := cs.takeWhile isKeyChar
    if name.isEmpty then none else some (String.ofList name, cs.dropWhile isKeyChar)

def readKeyParts : Nat → Reader (List String)
  | 0, _ => none
  | parts + 1, cs => do
    let (name, rest) ← readSimpleKey (dropSpaces cs)
    match dropSpaces rest with
    | '.' :: more =>
      let (names, rest) ← readKeyParts parts more
      return (name :: names, rest)
    | rest => return ([name], rest)

/-- The most parts of a key, and the most levels of values in values. -/
def maxNesting : Nat := 79

def readKey (cs : List Char) : Option ((List String × String) × List Char) := do
  let (names, rest) ← readKeyParts maxNesting cs
  let last ← names.getLast?
  return ((names.dropLast, last), rest)

end DepthRaster.Toml
