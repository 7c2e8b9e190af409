import DepthRaster.Program
/-!
# The command

Runs the program on the files of the system.
-/

namespace DepthRaster.Command

open Files

/-- The refusal of a number, which the system may give with its sign changed. -/
def refusal (code : UInt32) (details : String) : OsError :=
  match if code < 0x80000000 then code.toNat else (0 - code).toNat with
  | 20 => .notADirectory
  | 21 => .isADirectory
  | 36 => .nameTooLong
  | number => .other (details.capitalize ++ " (os error " ++ toString number ++ ")")

def osError (e : IO.Error) : OsError :=
  match e with
  | .noFileOrDirectory _ _ _ => .notFound
  | .alreadyExists _ _ _ => .alreadyExists
  | .inappropriateType _ code details => refusal code details
  | .invalidArgument _ code details => refusal code details
  | .permissionDenied _ code details => refusal code details
  | .resourceExhausted _ code details => refusal code details
  | e => .other (toString e)

def attempt {α : Type} (p : Path) (action : IO α) : IO (Except OsError α) := do
  if p.hasZero then return .error .zeroInPath
  match ← action.toBaseIO with
  | .ok a => return .ok a
  | .error e => return .error (osError e)

def opens (p : Path) : IO Bool := do
  return (← attempt p (IO.FS.Handle.mk p.text .read)).isOk

def access : Access IO where
  exists? p := opens p
  isDirectory p := if p.text.isEmpty then return false else opens ⟨p.text ++ "/."⟩
  read p := attempt p do return (← IO.FS.readBinFile p.text).data
  write p bytes := attempt p (IO.FS.writeBinFile p.text ⟨bytes⟩)
  makeDirectory p := attempt p (IO.FS.createDir p.text)

def versionText : String := "depth-raster 0.1.0"

def usageText : String :=
  "usage: depth-raster OBJ [-c FILE] [--width N] [--height N] [-o DIR] [--orthographic] " ++
    "[--wireframe] [--seed N] [--single-threaded]"

def display (outcome : Program.Outcome) : IO Unit :=
  match outcome with
  | .done => pure ()
  | .failed failure => IO.eprintln failure.report
  | .usage (.asked .version) => IO.println versionText
  | .usage (.asked .help) => IO.println usageText
  | .usage _ => IO.eprintln usageText

end DepthRaster.Command

open DepthRaster in
def main (words : List String) : IO UInt32 := do
  let (outcome, warnings) ← Program.run Command.access words
  warnings.forM IO.eprintln
  Command.display outcome
  return outcome.exitCode
