import DepthRaster.Geometry.Point
/-!
# Signed areas and barycentric weights

The area of a triangle of cells is positive for one winding, negative for the other and zero when
its corners lie on a line. The weights of a cell are the areas of the three triangles it forms with
two of the corners, as shares of the whole.
-/

namespace DepthRaster.Geometry

open Numeric (Scalar)

/-- The signed area of the triangle with corners `a`, `b`, `c`: half the sum, over its edges, of the
rise times the sum of the two abscissas. -/
@[specialize] def signedArea (α : Type) [Scalar α] (a b c : Cell) : α :=
  let xa : α := Scalar.ofInt a.x
  let ya : α := Scalar.ofInt a.y
  let xb : α := Scalar.ofInt b.x
  let yb : α := Scalar.ofInt b.y
  let xc : α := Scalar.ofInt c.x
  let yc : α := Scalar.ofInt c.y
  ((yb - ya) * (xb + xa) + (yc - yb) * (xc + xb) + (ya - yc) * (xa + xc)) / Scalar.ofInt 2

structure Weights (α : Type) where
  first : α
  second : α
  third : α
deriving DecidableEq, Repr

@[specialize] def barycentric {α : Type} [Scalar α] (p a b c : Cell) (total : α) : Weights α where
  first := signedArea α p b c / total
  second := signedArea α p c a / total
  third := signedArea α p a b / total

namespace Weights

variable {α : Type} [Scalar α]

/-- No weight is negative. The boundary of a triangle counts as inside. -/
@[specialize] def inside (w : Weights α) : Bool :=
  let zero : α := Scalar.ofInt 0
  decide (zero ≤ w.first) && decide (zero ≤ w.second) && decide (zero ≤ w.third)

@[specialize] def interpolate (w : Weights α) (a b c : α) : α :=
  w.first * a + w.second * b + w.third * c

end Weights

end DepthRaster.Geometry
