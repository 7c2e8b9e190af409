import DepthRaster.Color.Rgb
import DepthRaster.Numeric.Whole
import DepthRaster.Text.Blank
/-!
# Colours in text

A colour is written as three numbers with commas between them. Blanks around a number do not count.
-/

namespace DepthRaster.Color

open Numeric (WholeError)

inductive ColorError where
  /-- There are not three parts. -/
  | partCount (text : String)
  /-- A part, shown with its blanks, is no channel. -/
  | badChannel (part : String) (cause : WholeError)
deriving DecidableEq, Repr

def ColorError.message : ColorError → String
  | partCount text => s!"颜色 '{text}' 需要3个逗号分隔的值"
  | badChannel part cause => s!"无效颜色分量 '{part}': {cause.message}"

def readChannel (part : List Char) : Except ColorError UInt8 :=
  match Numeric.Whole.readUnsigned 255 (Text.trim part) with
  | .ok n => .ok (UInt8.ofNat n)
  | .error cause => .error (.badChannel (String.ofList part) cause)

/-- Reads a colour. The leftmost bad part is blamed. -/
def readRgb (text : String) : Except ColorError Rgb :=
  match text.toList.splitOn ',' with
  | [red, green, blue] => do
    let r ← readChannel red
    let g ← readChannel green
    let b ← readChannel blue
    return ⟨r, g, b⟩
  | _ => .error (.partCount text)

end DepthRaster.Color
