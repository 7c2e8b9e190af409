import Std.Data.HashMap
import DepthRaster.Obj.Statement
import DepthRaster.Mesh.Submesh
/-!
# From statements to submeshes

Faces wait until their part ends: at a new part, at a change of material, or at the end of the file.
Then they are checked and cut into triangles, and become a submesh that has just the vertices they
use, in the order of their first use.
-/

namespace DepthRaster.Obj

open DepthRaster.Geometry (Point)
open Mesh (Submesh Corners)

/-- A corner of a face: places of a vertex, a texture coordinate and a normal, counted from zero. A
place before the first is negative; what is not given has no place. -/
structure Corner where
  vertex : Option Int
  texture : Option Int
  normal : Option Int
deriving DecidableEq, Repr

def placeOf (count : Nat) (written : Option Int) : Option Int :=
  match written with
  | none => none
  | some n =>
    let place := if n < 0 then count + n else n - 1
    if place = -1 then none else some place

def unnamedPart : String := "unnamed_object"

structure Assembly where
  positions : Array (Point Float32) := #[]
  channels : Nat := 0
  textures : Nat := 0
  normals : Nat := 0
  /-- The faces that wait for the end of their part. -/
  waiting : Array (List Corner) := #[]
  submeshes : Array Submesh := #[]
  /-- The materials with their numbers; of two with one name the later counts. -/
  materials : Std.HashMap String Nat := {}
  materialCount : Nat := 0
  /-- The number of the material in use. -/
  material : Option Nat := none
  name : String := unnamedPart

structure Draft where
  places : Std.HashMap Nat Nat := {}
  coordinates : Array Float32 := #[]
  indices : Array UInt32 := #[]

namespace Assembly

/-- Adds a vertex to a submesh, unless it is there already. If any vertex has colours, those used
must have them. -/
def useVertex (assembly : Assembly) (draft : Draft) (vertex : Option Int) : Except ObjError Draft :=
  match vertex.bind Int.toNat? with
  | none => .error .vertexOutOfBounds
  | some vertex =>
    match draft.places[vertex]? with
    | some place => .ok { draft with indices := draft.indices.push (UInt32.ofNat place) }
    | none =>
      match assembly.positions[vertex]? with
      | none => .error .vertexOutOfBounds
      | some p =>
        if 0 < assembly.channels ∧ assembly.channels ≤ vertex * 3 + 2 then .error .colorOutOfBounds
        else
          let place := draft.places.size
          .ok {
            places := draft.places.insert vertex place
            coordinates := ((draft.coordinates.push p.x).push p.y).push p.z
            indices := draft.indices.push (UInt32.ofNat place) }

/-- Checks a place among texture coordinates or normals. Nothing is checked when there are none. -/
def checkPlace (count : Nat) (cause : ObjError) : Option Int → Except ObjError Unit
  | none => .ok ()
  | some place => if count = 0 ∨ (0 ≤ place ∧ place < count) then .ok () else .error cause

def useCorner (assembly : Assembly) (draft : Draft) (corner : Corner) : Except ObjError Draft := do
  let draft ← assembly.useVertex draft corner.vertex
  checkPlace assembly.textures .textureOutOfBounds corner.texture
  checkPlace assembly.normals .normalOutOfBounds corner.normal
  return draft

/-- The triangles of a face with three corners or more, all of which meet at its first corner.
Points and lines have no triangles. -/
def fan {α : Type} : List α → List (Corners α)
  | [] => []
  | first :: rest => (rest.zip rest.tail).map fun (second, third) => ⟨first, second, third⟩

def useFace (assembly : Assembly) (draft : Draft) (face : List Corner) : Except ObjError Draft :=
  if face.isEmpty then .error .emptyFace
  else ((fan face).flatMap Corners.toList).foldlM assembly.useCorner draft

def close (assembly : Assembly) : Except ObjError Assembly := do
  let draft ← assembly.waiting.toList.foldlM assembly.useFace {}
  let submesh : Submesh := ⟨assembly.name, draft.coordinates, draft.indices⟩
  return { assembly with submeshes := assembly.submeshes.push submesh, waiting := #[] }

def closeFaces (assembly : Assembly) : Except ObjError Assembly :=
  if assembly.waiting.isEmpty then .ok assembly else assembly.close

def cornerOf (assembly : Assembly) (written : CornerText) : Corner where
  vertex := placeOf assembly.positions.size written.vertex
  texture := placeOf assembly.textures written.texture
  normal := placeOf assembly.normals written.normal

def addMaterial (assembly : Assembly) (name : String) : Assembly :=
  { assembly with
    materials := assembly.materials.insert name assembly.materialCount
    materialCount := assembly.materialCount + 1 }

/-- Takes in a statement. Libraries that cannot be read define no materials. -/
def step (library : String → Option (List String)) (assembly : Assembly) :
    Statement → Except ObjError Assembly
  | .nothing => .ok assembly
  | .position point channels =>
    .ok { assembly with
      positions := assembly.positions.push point
      channels := assembly.channels + channels }
  | .textureCoordinate => .ok { assembly with textures := assembly.textures + 1 }
  | .normal => .ok { assembly with normals := assembly.normals + 1 }
  | .face corners =>
    .ok { assembly with waiting := assembly.waiting.push (corners.map assembly.cornerOf) }
  | .part name => do
    let assembly ← assembly.closeFaces
    return { assembly with name := if name.isEmpty then unnamedPart else name }
  | .library name => .ok (((library name).getD []).foldl addMaterial assembly)
  | .material name => do
    let material := assembly.materials[name]?
    let assembly ← if assembly.material = material then pure assembly else assembly.closeFaces
    return { assembly with material }

def stepLine (library : String → Option (List String)) (assembly : Assembly) (line : Line) :
    Except ObjError Assembly := do
  assembly.step library (← Statement.ofLine line)

end Assembly

/-- The submeshes of the lines of a file, with the materials of its libraries. The end of the file
ends a part even if it has no faces. -/
def submeshes (library : String → Option (List String)) (lines : List Line) :
    Except ObjError (List Submesh) := do
  let assembly ← lines.foldlM (Assembly.stepLine library) {}
  return (← assembly.close).submeshes.toList

end DepthRaster.Obj
