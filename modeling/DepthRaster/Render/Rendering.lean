import DepthRaster.Render.Placement
import DepthRaster.Raster.Fill
import DepthRaster.Raster.Export
import DepthRaster.Raster.Segment
/-!
# Renderings

A rendering is a colour image and a depth image of a model, with the numbers of faces and fragments
that went into them. At each pixel the nearest fragment shows; of several as near, that of the first
face. Outlines, if they are wanted, are drawn over the colour image, of hidden faces too.
-/

namespace DepthRaster.Render

open Color (Rgb)
open DepthRaster.Geometry (Cell ScreenVertex)
open Mesh (Corners)
open Raster (FrameBuffer FillCounts Triangle Write)

structure Canvas where
  width : Nat
  height : Nat
  /-- Whether the rows of large triangles are shared out. -/
  shared : Bool := false
  /-- The colour of outlines, if they are drawn. -/
  wire : Option Rgb := none
deriving DecidableEq, Repr

structure Stats where
  faces : Nat
  /-- The faces with a corner that has no place. -/
  rejected : Nat
  /-- The faces seen from behind or too small. -/
  culled : Nat
  rasterized : Nat
  fragments : Nat
  /-- The fragments that won their pixel at the time. -/
  written : Nat
deriving DecidableEq, Repr

structure Rendering (ε : Type) where
  color : Image
  depth : Image
  stats : Stats
  rejections : List (Rejection ε)

/-- What drawing the faces with a place on the screen comes to. -/
structure Drawing where
  buffer : FrameBuffer
  culled : Nat := 0
  rasterized : Nat := 0
  counts : FillCounts := {}

/-- The order of a face among those as near. Faces beyond the range of orders share the last one. -/
def orderOf (index : Nat) : UInt32 := UInt32.ofNat (min index (UInt32.size - 1))

def edges (t : Triangle) : List (Cell × Cell) :=
  [(t.a.cell, t.b.cell), (t.b.cell, t.c.cell), (t.c.cell, t.a.cell)]

def drawOutlines (image : Image) (faces : List PlacedFace) (color : Rgb) : Image :=
  (faces.flatMap fun face => edges face.triangle).foldl
    (fun image (a, b) => image.drawSegment a b color) image

namespace Canvas

def writes (canvas : Canvas) (colorOf : Nat → Rgb) (face : PlacedFace) : List Write :=
  face.triangle.writes (orderOf face.index) (colorOf face.index) canvas.width canvas.height
    canvas.shared

def fill (canvas : Canvas) (colorOf : Nat → Rgb) (faces : List PlacedFace) :
    FrameBuffer × FillCounts :=
  faces.foldl
    (fun state face => (canvas.writes colorOf face).foldl FrameBuffer.compositeCounted state)
    (.empty canvas.width canvas.height, {})

variable {ρ ε : Type}

def develop (canvas : Canvas) (faces : Nat) (placement : Placement ε) (drawing : Drawing) :
    Rendering ε :=
  let (color, depth) := drawing.buffer.toImages
  { color := match canvas.wire with
      | none => color
      | some wire => drawOutlines color placement.placed wire
    depth
    stats := {
      faces
      rejected := placement.rejected.length
      culled := drawing.culled
      rasterized := drawing.rasterized
      fragments := drawing.counts.fragments
      written := drawing.counts.written }
    rejections := placement.rejected }

/-- Draws a model, whose points a transform takes to the screen and whose faces have colours by
their places in the model. -/
def render (canvas : Canvas) (faces : List (Corners ρ)) (transform : ρ → Except ε ScreenVertex)
    (colorOf : Nat → Rgb) : Rendering ε :=
  let placement := placeFaces transform faces
  let drawn := placement.drawn
  let (buffer, counts) := canvas.fill colorOf drawn
  canvas.develop faces.length placement
    { buffer, culled := placement.culled.length, rasterized := drawn.length, counts }

end Canvas

end DepthRaster.Render
