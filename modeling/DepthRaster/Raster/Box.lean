import DepthRaster.Raster.Triangle
/-!
# Bounding boxes

The box of a triangle holds the pixels of the buffer between the triangle's least and greatest
coordinates. Its pixels are visited row by row, each row from left to right.
-/

namespace DepthRaster.Raster

/-- A rectangle of pixels, both ends included. -/
structure Box where
  minX : Nat
  minY : Nat
  maxX : Nat
  maxY : Nat
deriving DecidableEq, Repr

namespace Box

/-- The pixels of a buffer within the extent of a triangle, if there are any. Sizes count as signed
words of 64 bits. -/
def ofTriangle (t : Triangle) (width height : Nat) : Option Box :=
  let w : Int := Int.bmod width UInt64.size
  let h : Int := Int.bmod height UInt64.size
  let minX := min (min t.a.x t.b.x) t.c.x
  let minY := min (min t.a.y t.b.y) t.c.y
  let maxX := max (max t.a.x t.b.x) t.c.x
  let maxY := max (max t.a.y t.b.y) t.c.y
  if width = 0 ∨ height = 0 then none
  else if maxX < 0 ∨ maxY < 0 ∨ w ≤ minX ∨ h ≤ minY then none
  else
    some {
      minX := (max minX 0).toNat
      minY := (max minY 0).toNat
      maxX := (min maxX (w - 1)).toNat
      maxY := (min maxY (h - 1)).toNat }

def pixelCount (box : Box) : Nat := (box.maxX + 1 - box.minX) * (box.maxY + 1 - box.minY)

def columns (box : Box) : List Nat := List.range' box.minX (box.maxX + 1 - box.minX)

def rows (box : Box) : List Nat := List.range' box.minY (box.maxY + 1 - box.minY)

def pixels (box : Box) : List (Nat × Nat) :=
  box.rows.flatMap fun y => box.columns.map fun x => (x, y)

end Box

end DepthRaster.Raster
