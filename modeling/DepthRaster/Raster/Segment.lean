import DepthRaster.Geometry.Point
import DepthRaster.Image.Basic
import DepthRaster.Color.Rgb
/-!
# Segments

A segment is drawn with one pixel for each step along its longer axis, from its lower end to its
upper end; the other coordinate follows the straight line and is rounded. Only steps inside the
image are taken, however far outside the ends lie.
-/

namespace DepthRaster.Raster

open Numeric (Scalar)
open DepthRaster.Geometry
open Color (Rgb)

/-- A segment laid along the axis it is stepped on: `start.x ≤ finish.x`, and the two coordinates
are exchanged when the segment is steep. -/
structure Segment where
  steep : Bool
  start : Cell
  finish : Cell
deriving DecidableEq, Repr

namespace Segment

def between (a b : Cell) : Segment :=
  let steep := decide ((a.x - b.x).natAbs < (a.y - b.y).natAbs)
  let p := if steep then a.transpose else a
  let q := if steep then b.transpose else b
  if q.x < p.x then ⟨steep, q, p⟩ else ⟨steep, p, q⟩

@[specialize] def across (α : Type) [Scalar α] (s : Segment) (x : Int) : Int :=
  let span : α := Scalar.ofInt (s.finish.x - s.start.x)
  let t : α :=
    if Scalar.ofInt 0 < span then Scalar.ofInt (x - s.start.x) / span else Scalar.ofInt 0
  Scalar.roundWithin minCoordinate maxCoordinate
    (Scalar.ofInt s.start.y + Scalar.ofInt (s.finish.y - s.start.y) * t)

@[specialize] def cellAt (α : Type) [Scalar α] (s : Segment) (x : Int) : Cell :=
  if s.steep then ⟨s.across α x, x⟩ else ⟨x, s.across α x⟩

def steps (first last : Int) : List Int :=
  (List.range (last + 1 - first).toNat).map fun (i : Nat) => first + i

def cells (α : Type) [Scalar α] (s : Segment) : List Cell :=
  (steps s.start.x s.finish.x).map (s.cellAt α)

@[specialize] def cellsWithin (α : Type) [Scalar α] (s : Segment) (extent : Nat) : List Cell :=
  (steps (max s.start.x 0) (min s.finish.x (extent - 1))).map (s.cellAt α)

end Segment

end DepthRaster.Raster

namespace DepthRaster.Image

open Numeric (Scalar)
open DepthRaster.Geometry
open Raster
open Color (Rgb)

def setCells (image : Image) (cells : List Cell) (color : Rgb) : Image :=
  cells.foldl (fun image c => (image.setPixel c.x c.y color.toList).1) image

def drawSegment (image : Image) (a b : Cell) (color : Rgb) : Image :=
  let s := Segment.between a b
  image.setCells (s.cellsWithin Float (if s.steep then image.height else image.width)) color

end DepthRaster.Image
