import DepthRaster.Color.Rgb
import DepthRaster.Color.KeyStream
/-!
# Colours of faces

All faces have one colour, or each has a colour of its own that depends on a seed and on the face's
place in the mesh, and on nothing else.
-/

namespace DepthRaster.Color

inductive FaceColoring where
  | random (seed : UInt64)
  | solid (color : Rgb)
deriving DecidableEq, Repr

/-- Draws a channel below 255: the high half of a word times 255. When the low half could make the
draw uneven, the next word settles whether it carries over. -/
def drawChannel : List UInt32 → UInt8 × List UInt32
  | [] => (0, [])
  | word :: rest =>
    let product := word.toNat * 255
    let high := product / UInt32.size
    let low := product % UInt32.size
    if UInt32.size - 255 < low then
      match rest with
      | [] => (UInt8.ofNat high, [])
      | next :: rest =>
        let carries := decide (UInt32.size ≤ low + next.toNat * 255 / UInt32.size)
        (UInt8.ofNat (if carries then high + 1 else high), rest)
    else
      (UInt8.ofNat high, rest)

def randomColor (seed : UInt64) (face : Nat) : Rgb :=
  let words := KeyStream.ofSeed (seed ^^^ UInt64.ofNat face)
  let (red, words) := drawChannel words
  let (green, words) := drawChannel words
  let (blue, _) := drawChannel words
  ⟨red, green, blue⟩

def FaceColoring.colorOf : FaceColoring → Nat → Rgb
  | random seed, face => randomColor seed face
  | solid color, _ => color

end DepthRaster.Color
