import DepthRaster.Color.Rgb
/-!
# Samples

What the frame buffer keeps of a pixel is one word of 64 bits: the depth in the top 8, then 32 for
the standing of the writer, then 24 for the colour. Writers of lower order have higher standing, so
comparing the top 40 bits compares depth first and prefers the lower order among equal depths.
-/

namespace DepthRaster.Raster

open Color (Rgb)

structure Sample where
  bits : UInt64
deriving DecidableEq, Repr, Inhabited

namespace Sample

def empty : Sample := ⟨0⟩

def pack (depth : UInt8) (order : UInt32) (color : Rgb) : Sample :=
  ⟨(depth.toUInt64 <<< 56) ||| ((0xFFFFFFFF - order).toUInt64 <<< 24) |||
    (color.red.toUInt64 <<< 16) ||| (color.green.toUInt64 <<< 8) ||| color.blue.toUInt64⟩

/-- What decides between two samples: depth, then standing. -/
def rank (s : Sample) : UInt64 := s.bits >>> 24

def depth (s : Sample) : UInt8 := (s.bits >>> 56).toUInt8

def color (s : Sample) : Rgb :=
  ⟨(s.bits >>> 16).toUInt8, (s.bits >>> 8).toUInt8, s.bits.toUInt8⟩

end Sample

end DepthRaster.Raster
