import DepthRaster.Raster.Fragment
import DepthRaster.Raster.FrameBuffer
/-!
# Filling triangles

Filling a triangle writes each of its fragments into a frame buffer, all of one colour and order.
The result counts the fragments and those that won their pixel at the time.
-/

namespace DepthRaster.Raster

open Color (Rgb)

/-- Boxes of more pixels than this are filled row by row when work is shared. -/
def sharedFillThreshold : Nat := 4096

structure FillCounts where
  fragments : Nat := 0
  written : Nat := 0
deriving DecidableEq, Repr

namespace FrameBuffer

def compositeCounted : FrameBuffer × FillCounts → Write → FrameBuffer × FillCounts
  | (fb, counts), w =>
    match fb.composite w with
    | (fb, won) => (fb, ⟨counts.fragments + 1, counts.written + won.toNat⟩)

def compositeAll (fb : FrameBuffer) (writes : List Write) : FrameBuffer × FillCounts :=
  writes.foldl compositeCounted (fb, {})

end FrameBuffer

def Fragment.write {α : Type} (f : Fragment α) (order : UInt32) (color : Rgb) : Write :=
  { x := f.x, y := f.y, depth := f.depth, order, color }

namespace Triangle

def isLarge (t : Triangle) (width height : Nat) : Bool :=
  match Box.ofTriangle t width height with
  | some box => decide (sharedFillThreshold < box.pixelCount)
  | none => false

def writes (t : Triangle) (order : UInt32) (color : Rgb) (width height : Nat) (shared : Bool) :
    List Write :=
  let fragments : List (Fragment Float) :=
    if shared && t.isLarge width height then t.fragmentsByRow Float width height
    else t.fragments Float width height
  fragments.map (·.write order color)

end Triangle

def FrameBuffer.fill (fb : FrameBuffer) (t : Triangle) (order : UInt32) (color : Rgb)
    (shared : Bool) : FrameBuffer × FillCounts :=
  let writes := t.writes order color fb.width fb.height shared
  fb.compositeAll writes

end DepthRaster.Raster
