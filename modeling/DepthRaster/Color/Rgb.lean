/-!
# Colours
-/

namespace DepthRaster.Color

structure Rgb where
  red : UInt8
  green : UInt8
  blue : UInt8
deriving DecidableEq, Repr, Inhabited

namespace Rgb

def black : Rgb := ⟨0, 0, 0⟩

def white : Rgb := ⟨255, 255, 255⟩

def toList (c : Rgb) : List UInt8 := [c.red, c.green, c.blue]

end Rgb

end DepthRaster.Color
