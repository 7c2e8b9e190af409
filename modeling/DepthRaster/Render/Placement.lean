import DepthRaster.Mesh.Basic
import DepthRaster.Raster.Triangle
/-!
# Faces on the screen

Each face of a model either has a place on the screen, when all of its corners have one, or is
rejected for the first corner that has none.
-/

namespace DepthRaster.Render

open DepthRaster.Geometry (ScreenVertex)
open Mesh (Corners)
open Raster (Triangle)

structure PlacedFace where
  /-- The place of the face among the faces of its model. -/
  index : Nat
  triangle : Triangle
deriving DecidableEq, Repr

structure Rejection (ε : Type) where
  index : Nat
  cause : ε
deriving DecidableEq, Repr

def Rejection.message {ε : Type} (causeMessage : ε → String) (r : Rejection ε) : String :=
  s!"跳过面 {r.index}: {causeMessage r.cause}"

variable {ρ ε : Type}

def placeCorners (transform : ρ → Except ε ScreenVertex) (corners : Corners ρ) :
    Except ε Triangle := do
  let a ← transform corners.first
  let b ← transform corners.second
  let c ← transform corners.third
  return ⟨a, b, c⟩

def placeFace (transform : ρ → Except ε ScreenVertex) :
    Corners ρ × Nat → Except (Rejection ε) PlacedFace
  | (corners, index) =>
    match placeCorners transform corners with
    | .ok triangle => .ok ⟨index, triangle⟩
    | .error cause => .error ⟨index, cause⟩

structure Placement (ε : Type) where
  placed : List PlacedFace
  rejected : List (Rejection ε)

def failure? {α : Type} : Except ε α → Option ε
  | .ok _ => none
  | .error cause => some cause

def placeFaces (transform : ρ → Except ε ScreenVertex) (faces : List (Corners ρ)) : Placement ε :=
  let outcomes := faces.zipIdx.map (placeFace transform)
  ⟨outcomes.filterMap Except.toOption, outcomes.filterMap failure?⟩

namespace Placement

def drawn (placement : Placement ε) : List PlacedFace :=
  placement.placed.filter (·.triangle.isDrawn)

/-- The faces that are seen from behind or too small to be seen. -/
def culled (placement : Placement ε) : List PlacedFace :=
  placement.placed.filter (!·.triangle.isDrawn)

end Placement

end DepthRaster.Render
