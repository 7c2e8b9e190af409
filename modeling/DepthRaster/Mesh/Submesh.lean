import DepthRaster.Mesh.Basic
import DepthRaster.Numeric.Binary
/-!
# Merging submeshes

A submesh has coordinates and indices of its own, both as plain rows of numbers: three coordinates
make a point, three indices a face, and numbers left over at the end of a row are not used. Merging
puts the points of submeshes one after the other and moves the faces along. Faces that name points
beyond their submesh are left out, with a warning.
-/

namespace DepthRaster.Mesh

open DepthRaster.Geometry (Point)
open Numeric (Binary)

structure Submesh where
  name : String
  coordinates : Array Float32
  indices : Array UInt32

/-- The complete triples of a row of numbers. -/
def triples {α : Type} (row : Array α) : List (Corners α) :=
  List.ofFn fun (i : Fin (row.size / 3)) =>
    have bound : 3 * i.val + 2 < row.size := by have := i.isLt; omega
    have second : 3 * i.val + 1 < row.size := Nat.lt_of_succ_lt bound
    have first : 3 * i.val < row.size := Nat.lt_of_succ_lt second
    ⟨row[3 * i.val], row[3 * i.val + 1], row[3 * i.val + 2]⟩

def widen (x : Float32) : Float := (Binary.ofSingle x).toFloat

namespace Submesh

def positions (s : Submesh) : List (Point Float) :=
  (triples s.coordinates).map fun c => ⟨widen c.first, widen c.second, widen c.third⟩

def size (s : Submesh) : Nat := s.coordinates.size / 3

/-- The faces, in range or not. -/
def faces (s : Submesh) : List Face := (triples s.indices).map (·.map UInt32.toNat)

end Submesh

inductive MergeWarning where
  | skippedFace (submesh : String) (index : Nat)
  | skippedFaces (count : Nat)
deriving DecidableEq, Repr

def MergeWarning.message : MergeWarning → String
  | skippedFace submesh index => s!"模型 '{submesh}' 的面 {index} 包含越界的顶点索引，跳过"
  | skippedFaces count => s!"共跳过 {count} 个无效面"

structure Merged where
  positions : Array (Point Float) := #[]
  faces : Array Face := #[]
  skipped : Array MergeWarning := #[]

namespace Merged

def addFace (submesh : Submesh) (offset : Nat) (merged : Merged) (numbered : Face × Nat) :
    Merged :=
  match numbered with
  | (face, index) =>
    if face.isBelow submesh.size then
      { merged with faces := merged.faces.push (face.map (· + offset)) }
    else
      { merged with skipped := merged.skipped.push (.skippedFace submesh.name index) }

def add (merged : Merged) (submesh : Submesh) : Merged :=
  let offset := merged.positions.size
  submesh.faces.zipIdx.foldl (addFace submesh offset)
    { merged with positions := merged.positions ++ submesh.positions }

def warnings (merged : Merged) : List MergeWarning :=
  let skipped := merged.skipped.toList
  if skipped.isEmpty then [] else skipped ++ [.skippedFaces skipped.length]

end Merged

def merge (submeshes : List Submesh) : Except FaceError Mesh × List MergeWarning :=
  let merged := submeshes.foldl Merged.add {}
  (ofFaces merged.positions merged.faces.toList, merged.warnings)

end DepthRaster.Mesh
