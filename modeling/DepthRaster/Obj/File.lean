import DepthRaster.Obj.Assembly
import DepthRaster.Obj.Materials
/-!
# Readers of OBJ texts and files

A reader makes submeshes of a text, or of a file with the libraries of materials that lie beside it.
Meshes can be made with any readers; those here know the statements of this library.
-/

namespace DepthRaster.Obj

open Files (Access Path)
open Mesh (Submesh)

abbrev TextReader := (text : String) → Except ObjError (List Submesh)

abbrev FileReader (m : Type → Type) := Path → m (Except ObjError (List Submesh))

/-- Reads a text by itself, whose libraries cannot be read. -/
def readText : TextReader := fun text => submeshes (fun _ => none) (textLines text)

def libraryNames (lines : List Line) : List String :=
  lines.filterMap fun line =>
    match Statement.ofLine line with
    | .ok (.library name) => some name
    | _ => none

variable {m : Type → Type} [Monad m]

def loadLibrary (access : Access m) (path : Path) : m (Option (List String)) := do
  match ← access.read path with
  | .error _ => return none
  | .ok bytes => return materialNames (fileLines bytes)

def readFile (access : Access m) : FileReader m := fun path => do
  match ← access.read path with
  | .error _ => return .error .unreadable
  | .ok bytes =>
    let lines := fileLines bytes
    let directory := path.parent?.getD ⟨""⟩
    let libraries ← (libraryNames lines).mapM fun name => do
      return (name, ← loadLibrary access (directory.join ⟨name⟩))
    return submeshes (fun name => (libraries.lookup name).join) lines

end DepthRaster.Obj
