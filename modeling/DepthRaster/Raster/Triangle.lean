import DepthRaster.Geometry.Area
import DepthRaster.Geometry.Projection
/-!
# Triangles on the screen

The order of the corners says which side of a triangle is seen. Triangles seen from behind have
negative area and are not drawn, and neither are those that cover less than one pixel.
-/

namespace DepthRaster.Raster

open Numeric (Scalar)
open DepthRaster.Geometry

structure Triangle where
  a : ScreenVertex
  b : ScreenVertex
  c : ScreenVertex
deriving DecidableEq, Repr

namespace Triangle

@[specialize] def area (α : Type) [Scalar α] (t : Triangle) : α :=
  signedArea α t.a.cell t.b.cell t.c.cell

/-- Whether the triangle is drawn: it is seen from the front and covers at least one pixel. -/
def isDrawn (t : Triangle) : Bool := decide ((1 : Float) ≤ t.area Float)

end Triangle

end DepthRaster.Raster
