import DepthRaster.Geometry.Point
/-!
# Projection and viewport

A projection takes turned points to the cube from -1 to 1; a viewport takes that cube to pixel
positions and depth levels. Larger depths are nearer, and depth 0 stands for an empty pixel.
-/

namespace DepthRaster.Geometry

open Numeric (Scalar)

inductive Projection (α : Type) where
  /-- Points shrink toward the axis as they recede: the scale is `1 / (1 - z / focalDistance)`. -/
  | perspective (focalDistance : α)
  | orthographic
deriving Repr

/-- A point that has no image under a perspective. -/
structure OnFocalPlane (α : Type) where
  point : Point α
  focalDistance : α

def Projection.divide {α : Type} [Scalar α] (projection : Projection α) (p : Point α) :
    Except (OnFocalPlane α) (Point α) :=
  match projection with
  | .orthographic => .ok p
  | .perspective focalDistance =>
    let one : α := Scalar.ofInt 1
    let denominator := one - p.z / focalDistance
    if Scalar.isFinite denominator && !decide (denominator ≤ one / Scalar.ofInt (1 <<< 52)) then
      .ok ⟨p.x / denominator, p.y / denominator, p.z / denominator⟩
    else
      .error ⟨p, focalDistance⟩

structure ScreenVertex where
  x : Int
  y : Int
  depth : UInt8
deriving DecidableEq, Repr

def ScreenVertex.cell (v : ScreenVertex) : Cell := ⟨v.x, v.y⟩

structure Viewport where
  width : Nat
  height : Nat
  depthLevels : UInt8
deriving DecidableEq, Repr

namespace Viewport

variable {α : Type} [Scalar α]

def scale (extent : Int) (t : α) : α :=
  (t + Scalar.ofInt 1) * Scalar.ofInt extent / Scalar.ofInt 2

/-- The corner of an image point. Pixel coordinates are rounded, depths are rounded and kept between
0 and the number of levels. -/
def place (viewport : Viewport) (p : Point α) : ScreenVertex where
  x := Scalar.roundWithin minCoordinate maxCoordinate (scale viewport.width p.x)
  y := Scalar.roundWithin minCoordinate maxCoordinate (scale viewport.height p.y)
  depth :=
    let levels := viewport.depthLevels.toNat
    UInt8.ofNat (Scalar.roundWithin 0 levels (scale levels p.z)).toNat

end Viewport

end DepthRaster.Geometry
