import DepthRaster.Raster.Box
/-!
# Fragments

A fragment is a pixel that a triangle covers, with its barycentric weights and its depth. A triangle
covers a pixel when no weight is negative, so its edges belong to it; the depth is the weighted sum
of the depths at the corners, rounded.
-/

namespace DepthRaster.Raster

open Numeric (Scalar)
open DepthRaster.Geometry

structure Fragment (α : Type) where
  x : Nat
  y : Nat
  depth : UInt8
  weights : Weights α
deriving Repr

namespace Triangle

@[specialize] def fragmentAt {α : Type} [Scalar α] (t : Triangle) (total : α) (x y : Nat) :
    Option (Fragment α) :=
  let weights := barycentric ⟨coordinate x, coordinate y⟩ t.a.cell t.b.cell t.c.cell total
  if weights.inside then
    let depth : α := weights.interpolate (Scalar.ofInt t.a.depth.toNat)
      (Scalar.ofInt t.b.depth.toNat) (Scalar.ofInt t.c.depth.toNat)
    some ⟨x, y, UInt8.ofNat (Scalar.roundWithin 0 255 depth).toNat, weights⟩
  else
    none

/-- The box to scan and the area, for a triangle that is drawn and touches the buffer. -/
@[specialize] def coverage (α : Type) [Scalar α] (t : Triangle) (width height : Nat) :
    Option (Box × α) :=
  let total := t.area α
  if total < Scalar.ofInt 1 then none
  else (Box.ofTriangle t width height).map fun box => (box, total)

@[specialize] def fragments (α : Type) [Scalar α] (t : Triangle) (width height : Nat) :
    List (Fragment α) :=
  match t.coverage α width height with
  | none => []
  | some (box, total) => box.pixels.filterMap fun (x, y) => t.fragmentAt total x y

@[specialize] def rowFragments {α : Type} [Scalar α] (t : Triangle) (box : Box) (total : α)
    (y : Nat) : List (Fragment α) :=
  box.columns.filterMap fun x => t.fragmentAt total x y

/-- The fragments found row by row, as when rows are shared among workers. -/
@[specialize] def fragmentsByRow (α : Type) [Scalar α] (t : Triangle) (width height : Nat) :
    List (Fragment α) :=
  match t.coverage α width height with
  | none => []
  | some (box, total) => box.rows.flatMap (t.rowFragments box total)

end Triangle

end DepthRaster.Raster
