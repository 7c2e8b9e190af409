import DepthRaster.Raster.Sample
/-!
# Frame buffers

A frame buffer keeps one sample for each pixel. A write replaces the sample of its pixel when it
ranks higher: it is nearer, or as near and of lower order. So what a buffer holds after a number of
writes does not depend on when each of them came.
-/

namespace DepthRaster.Raster

open Color (Rgb)

/-- The depth of an empty pixel. Nothing is drawn this far away. -/
def farDepth : UInt8 := 0

structure Write where
  x : Nat
  y : Nat
  depth : UInt8
  order : UInt32 := 0
  color : Rgb
deriving DecidableEq, Repr

structure FrameBuffer where
  width : Nat
  height : Nat
  samples : Array Sample
  size_samples : samples.size = width * height

namespace FrameBuffer

def empty (width height : Nat) : FrameBuffer where
  width := width
  height := height
  samples := Array.replicate (width * height) Sample.empty
  size_samples := Array.size_replicate

theorem offset_lt {x y width height : Nat} (hx : x < width) (hy : y < height) :
    y * width + x < width * height :=
  calc
    y * width + x < y * width + width := Nat.add_lt_add_left hx _
    _ = (y + 1) * width := by rw [Nat.succ_mul]
    _ ≤ height * width := Nat.mul_le_mul_right _ hy
    _ = width * height := Nat.mul_comm _ _

def sampleAt (fb : FrameBuffer) (x y : Nat) : Option Sample :=
  if h : x < fb.width ∧ y < fb.height then
    have bound : y * fb.width + x < fb.samples.size := fb.size_samples ▸ offset_lt h.1 h.2
    some fb.samples[y * fb.width + x]
  else
    none

/-- Tries a write, and says whether it won. Writes outside the buffer or at the far depth never
win. -/
def composite (fb : FrameBuffer) (w : Write) : FrameBuffer × Bool :=
  match fb with
  | ⟨width, height, samples, size_samples⟩ =>
    if h : w.x < width ∧ w.y < height then
      if w.depth = farDepth then
        (⟨width, height, samples, size_samples⟩, false)
      else
        let offset := w.y * width + w.x
        have bound : offset < samples.size := size_samples ▸ offset_lt h.1 h.2
        let sample := Sample.pack w.depth w.order w.color
        if samples[offset].rank < sample.rank then
          (⟨width, height, samples.set offset sample, by simpa using size_samples⟩, true)
        else
          (⟨width, height, samples, size_samples⟩, false)
    else
      (⟨width, height, samples, size_samples⟩, false)

def depthAt (fb : FrameBuffer) (x y : Nat) : Option UInt8 := (fb.sampleAt x y).map Sample.depth

def colorAt (fb : FrameBuffer) (x y : Nat) : Option Rgb := (fb.sampleAt x y).map Sample.color

/-- All colours, row by row, three bytes each. -/
def colorBytes (fb : FrameBuffer) : Array UInt8 :=
  fb.samples.flatMap fun s => s.color.toList.toArray

def depthBytes (fb : FrameBuffer) : Array UInt8 := fb.samples.map Sample.depth

end FrameBuffer

end DepthRaster.Raster
