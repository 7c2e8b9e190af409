import DepthRaster.Files.Path
/-!
# Access to files

What programs here need of a system of files, over any monad: a real system in the outermost layer,
a pure directory where programs are reasoned about.
-/

namespace DepthRaster.Files

inductive OsError where
  | notFound
  | alreadyExists
  | notADirectory
  | isADirectory
  | nameTooLong
  /-- The path has a zero in it, so that it was not even looked for. -/
  | zeroInPath
  /-- Any other refusal, with its text. -/
  | other (text : String)
deriving DecidableEq, Repr

def OsError.message : OsError → String
  | notFound => "No such file or directory (os error 2)"
  | alreadyExists => "File exists (os error 17)"
  | notADirectory => "Not a directory (os error 20)"
  | isADirectory => "Is a directory (os error 21)"
  | nameTooLong => "File name too long (os error 36)"
  | zeroInPath => "file name contained an unexpected NUL byte"
  | other text => text

abbrev Bytes := Array UInt8

structure Access (m : Type → Type) where
  exists? : Path → m Bool
  isDirectory : Path → m Bool
  read : Path → m (Except OsError Bytes)
  /-- Replaces the bytes of a file, which is made if need be. -/
  write : Path → Bytes → m (Except OsError Unit)
  /-- Makes one directory, whose parent must be there. -/
  makeDirectory : Path → m (Except OsError Unit)

namespace Access

variable {m : Type → Type} [Monad m]

/-- Makes one directory, unless it is already there. -/
def ensureDirectory (access : Access m) (p : Path) : m (Except OsError Unit) := do
  match ← access.makeDirectory p with
  | .error .alreadyExists =>
    if ← access.isDirectory p then return .ok () else return .error .alreadyExists
  | outcome => return outcome

/-- Makes the first of some directories, each of which lies in the next one. Those after it are made
as far as it takes. -/
def ensureChain (access : Access m) : List Path → m (Except OsError Unit)
  | [] => return .ok ()
  | p :: above => do
    match ← access.ensureDirectory p with
    | .error .notFound =>
      match ← access.ensureChain above with
      | .error e => return .error e
      | .ok () => access.ensureDirectory p
    | outcome => return outcome

/-- Makes a directory and those above it, as far as they are missing. A path is taken as it is
given, so one that ends in a dot asks for a directory that is already there. -/
def makeDirectories (access : Access m) (p : Path) : m (Except OsError Unit) :=
  access.ensureChain p.ancestors

end Access

end DepthRaster.Files
