import DepthRaster.Geometry.Point
/-!
# Meshes

A mesh is a list of points and a list of triangular faces that name points by their places. Every
face of a mesh names points that are there.
-/

namespace DepthRaster.Mesh

open DepthRaster.Geometry (Point)

structure Corners (α : Type) where
  first : α
  second : α
  third : α
deriving DecidableEq, Repr

namespace Corners

def map {α β : Type} (f : α → β) (c : Corners α) : Corners β := ⟨f c.first, f c.second, f c.third⟩

def toList {α : Type} (c : Corners α) : List α := [c.first, c.second, c.third]

def all {α : Type} (test : α → Bool) (c : Corners α) : Bool :=
  test c.first && test c.second && test c.third

end Corners

/-- A face: the places of its points, from zero on. -/
abbrev Face := Corners Nat

def Face.isBelow (size : Nat) (face : Face) : Bool := face.all (· < size)

structure FaceError where
  index : Nat
  face : Face
  size : Nat
deriving DecidableEq, Repr

def FaceError.message (e : FaceError) : String :=
  let places := ", ".intercalate (e.face.toList.map toString)
  s!"面 {e.index} 的顶点索引 [{places}] 越界（顶点数 {e.size}）"

end Mesh

structure Mesh where
  positions : Array (Geometry.Point Float)
  faces : List Mesh.Face
  isBelow_of_mem : ∀ face ∈ faces, Mesh.Face.isBelow positions.size face = true

namespace Mesh

open DepthRaster.Geometry (Point)

def ofFaces (positions : Array (Point Float)) (faces : List Face) : Except FaceError Mesh :=
  match h : faces.findIdx? fun face => !face.isBelow positions.size with
  | none => .ok ⟨positions, faces, by simpa using h⟩
  | some index =>
    have bound : index < faces.length := (List.findIdx?_eq_some_iff_getElem.mp h).1
    .error ⟨index, faces[index], positions.size⟩

def cornersOf (mesh : Mesh) (face : Face) (h : face.isBelow mesh.positions.size = true) :
    Corners (Point Float) :=
  have bounds : (face.first < mesh.positions.size ∧ face.second < mesh.positions.size) ∧
      face.third < mesh.positions.size := by
    simpa [Face.isBelow, Corners.all] using h
  have first := bounds.1.1
  have second := bounds.1.2
  have third := bounds.2
  ⟨mesh.positions[face.first], mesh.positions[face.second], mesh.positions[face.third]⟩

def corners (mesh : Mesh) : List (Corners (Point Float)) :=
  mesh.faces.attach.map fun ⟨face, h⟩ => mesh.cornersOf face (mesh.isBelow_of_mem face h)

end Mesh

end DepthRaster
