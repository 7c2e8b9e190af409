import DepthRaster.Files.Access
/-!
# Directories

A directory as a value: a tree of names. Following a path checks that every place it passes through
is a directory and that no name is too long, so the refusals are those of a real system.
-/

namespace DepthRaster.Files

inductive Entry where
  | file (bytes : Bytes)
  | directory (entries : List (String × Entry))

/-- Names with what they stand for. No name comes twice. -/
abbrev Entries := List (String × Entry)

abbrev Place := List String

namespace Entries

def set (entries : Entries) (name : String) (entry : Entry) : Entries :=
  if (entries.lookup name).isSome then
    entries.map fun old => if old.1 = name then (name, entry) else old
  else entries ++ [(name, entry)]

def lookupAt (entries : Entries) : Place → Option Entry
  | [] => none
  | [name] => entries.lookup name
  | name :: rest =>
    match entries.lookup name with
    | some (.directory inner) => lookupAt inner rest
    | _ => none

def setAt (entries : Entries) (entry : Entry) : Place → Entries
  | [] => entries
  | [name] => entries.set name entry
  | name :: rest =>
    match entries.lookup name with
    | some (.directory inner) => entries.set name (.directory (setAt inner entry rest))
    | _ => entries

end Entries

mutual

def Entry.files : Entry → List (Place × Bytes)
  | .file bytes => [([], bytes)]
  | .directory entries => filesIn entries

def filesIn : List (String × Entry) → List (Place × Bytes)
  | [] => []
  | (name, entry) :: rest =>
    entry.files.map (fun (place, bytes) => (name :: place, bytes)) ++ filesIn rest

end

def rootName : String := "/"

def aboveName : String := ".."

/-- The tree of names below the directory that relative paths start at. Two directories outside of
it stand beside the others, under names that no path has for them. -/
structure Directory where
  entries : Entries := [(rootName, .directory []), (aboveName, .directory [])]

/-- The way to a place: the names on it with what they stand for, from the last to the first. -/
abbrev Way := List (String × Option Entry)

def Way.place (way : Way) : Place := (way.map (·.1)).reverse

namespace Directory

def outside (d : Directory) (name : String) : Way := [(name, d.entries.lookup name)]

/-- The way to the directory above the end of a way. There is nothing above those outside. -/
def up (d : Directory) : Way → Way
  | [] => d.outside aboveName
  | [(name, entry)] => if name = rootName ∨ name = aboveName then [(name, entry)] else []
  | _ :: above => above

def look (d : Directory) : Way → Except OsError (Option Entry)
  | [] => .ok (some (.directory d.entries))
  | (name, entry) :: _ =>
    if Path.nameByteLimit < name.utf8ByteSize then .error .nameTooLong else .ok entry

def step (d : Directory) (way : Way) (name : String) : Except OsError Way := do
  match ← d.look way with
  | none => .error .notFound
  | some (.file _) => .error .notADirectory
  | some (.directory entries) =>
    if name = "." then .ok way
    else if name = ".." then .ok (d.up way)
    else .ok ((name, entries.lookup name) :: way)

/-- The way that a path leads; there may be nothing at its end. -/
def resolve (d : Directory) (p : Path) : Except OsError Way :=
  if p.hasZero then .error .zeroInPath
  else if p.text.isEmpty then .error .notFound
  else if Path.byteLimit ≤ p.text.utf8ByteSize then .error .nameTooLong
  else p.names.foldlM d.step (if p.isAbsolute then d.outside rootName else [])

/-- What a path leads to. A file is not reached by a path that names a directory. -/
def find (d : Directory) (p : Path) : Except OsError Entry := do
  match ← d.look (← d.resolve p) with
  | none => .error .notFound
  | some (.directory entries) => .ok (.directory entries)
  | some (.file bytes) => if p.namesDirectory then .error .notADirectory else .ok (.file bytes)

def read (d : Directory) (p : Path) : Except OsError Bytes := do
  match ← d.find p with
  | .directory _ => .error .isADirectory
  | .file bytes => .ok bytes

def write (d : Directory) (p : Path) (bytes : Bytes) : Except OsError Directory := do
  let way ← d.resolve p
  if p.namesDirectory then .error .isADirectory
  else match ← d.look way with
    | some (.directory _) => .error .isADirectory
    | _ => .ok ⟨d.entries.setAt (.file bytes) way.place⟩

def makeDirectory (d : Directory) (p : Path) : Except OsError Directory := do
  let way ← d.resolve p
  match ← d.look way with
  | some _ => .error .alreadyExists
  | none => .ok ⟨d.entries.setAt (.directory []) way.place⟩

def files (d : Directory) : List (Place × Bytes) :=
  filesIn (d.entries.filter fun entry => entry.1 ≠ rootName ∧ entry.1 ≠ aboveName)

def change (f : Directory → Except OsError Directory) : StateM Directory (Except OsError Unit) :=
  fun d => match f d with
    | .ok d => (.ok (), d)
    | .error e => (.error e, d)

def access : Access (StateM Directory) where
  exists? p := return (← get).find p |>.isOk
  isDirectory p := return match (← get).find p with
    | .ok (.directory _) => true
    | _ => false
  read p := return (← get).read p
  write p bytes := change (·.write p bytes)
  makeDirectory p := change (·.makeDirectory p)

end Directory

end DepthRaster.Files
