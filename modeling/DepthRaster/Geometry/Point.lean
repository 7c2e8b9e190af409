import DepthRaster.Numeric.Scalar
/-!
# Points and cells

A point is a place in space. A cell is a pixel position in the plane of the picture; it may lie
outside the picture, on any side.
-/

namespace DepthRaster.Geometry

structure Point (α : Type) where
  x : α
  y : α
  z : α
deriving DecidableEq, Repr

structure Cell where
  x : Int
  y : Int
deriving DecidableEq, Repr

def Cell.transpose (c : Cell) : Cell := ⟨c.y, c.x⟩

def minCoordinate : Int := -2147483648

def maxCoordinate : Int := 2147483647

def coordinate (n : Nat) : Int := Int.bmod n UInt32.size

/-- Whether a position has coordinates of 32 bits, as every projected corner has. -/
def Cell.InRange (c : Cell) : Prop :=
  (minCoordinate ≤ c.x ∧ c.x ≤ maxCoordinate) ∧ (minCoordinate ≤ c.y ∧ c.y ≤ maxCoordinate)

end DepthRaster.Geometry
