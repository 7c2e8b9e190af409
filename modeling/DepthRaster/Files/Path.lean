/-!
# Paths

A path is a text of names between separators. It is kept as it was given, since messages show it.
-/

namespace DepthRaster.Files

structure Path where
  text : String
deriving DecidableEq, Repr

namespace Path

def separator : Char := '/'

/-- The number of bytes from which on no path can be followed. -/
def byteLimit : Nat := 4096

def nameByteLimit : Nat := 255

def hasZero (p : Path) : Bool := p.text.toList.contains '\x00'

def isAbsolute (p : Path) : Bool := p.text.startsWith "/"

def namesDirectory (p : Path) : Bool := p.text.endsWith "/"

def names (p : Path) : List String :=
  ((p.text.toList.splitOn separator).filter (· ≠ [])).map String.ofList

/-- The names that tell places apart: a dot counts at the front only. -/
def components (p : Path) : List String :=
  match p.names with
  | [] => []
  | first :: rest =>
    let rest := rest.filter (· ≠ ".")
    if first = "." && p.isAbsolute then rest else first :: rest

def ofComponents (absolute : Bool) (components : List String) : Path :=
  ⟨(if absolute then "/" else "") ++ "/".intercalate components⟩

/-- The second path seen from the first: alone if it is absolute or the first is empty. -/
def join (base relative : Path) : Path :=
  if relative.isAbsolute || base.text.isEmpty then relative
  else if base.namesDirectory then ⟨base.text ++ relative.text⟩
  else ⟨base.text ++ "/" ++ relative.text⟩

def upwards (absolute : Bool) : List String → List Path
  | [] => []
  | name :: above => ofComponents absolute (name :: above).reverse :: upwards absolute above

/-- The path as it was given and those of the directories above it, as long as they have
components. -/
def ancestors (p : Path) : List Path :=
  match p.components.reverse with
  | [] => []
  | _ :: above => p :: upwards p.isAbsolute above

def parent? (p : Path) : Option Path :=
  match p.components with
  | [] => none
  | components => some (ofComponents p.isAbsolute components.dropLast)

/-- The last name, unless it stands for a directory relative to others. -/
def fileName? (p : Path) : Option String :=
  match p.components.getLast? with
  | some name => if name = "." || name = ".." then none else some name
  | none => none

/-- What follows the last dot of the file name. A dot at its front starts no extension. -/
def extension? (p : Path) : Option String := do
  let name ← p.fileName?
  let characters := name.toList.reverse
  let suffix := characters.takeWhile (· ≠ '.')
  let stem := characters.dropWhile (· ≠ '.') |>.drop 1
  if stem.isEmpty then none else some (String.ofList suffix.reverse)

end Path

end DepthRaster.Files
