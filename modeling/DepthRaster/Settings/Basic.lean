import DepthRaster.Color.Reading
import DepthRaster.Color.FaceColoring
import DepthRaster.Files.Path
import DepthRaster.Geometry.Projector
import DepthRaster.Text.Quoted
/-!
# Settings

All that can be chosen about a run: files, the size and the kind of picture, the camera and the
colours. Settings are checked before they are used; some of their parts can be used unchecked, with
a fallback and a warning.
-/

namespace DepthRaster

open Color (Rgb FaceColoring ColorError readRgb)
open DepthRaster.Geometry (Camera Projection)
open Numeric.Written (inMessage)

structure Settings where
  model : Option String := none
  outputDir : String := "."
  /-- The name of the colour picture, without its extension. -/
  colorName : String := "framebuffer"
  /-- The name of the depth picture, without its extension. -/
  depthName : String := "zbuffer"
  /-- The extension of the pictures. -/
  format : String := "tga"
  width : UInt64 := 800
  height : UInt64 := 800
  projection : String := "perspective"
  depthLevels : UInt8 := Geometry.maxDepthLevels
  multithreaded : Bool := true
  /-- Whether outlines are drawn over the colour picture. -/
  wireframe : Bool := false
  saveDepth : Bool := true
  rotationDegrees : Float := Geometry.defaultDegrees
  focalDistance : Float := Geometry.defaultFocalDistance
  /-- Whether each face has a colour of its own. -/
  colorize : Bool := true
  seed : UInt64 := 0
  /-- The colour of all faces otherwise. -/
  solidColor : String := "255,255,255"
  /-- The colour of outlines. -/
  wireColor : String := "255,255,255"
deriving BEq

def outputFormats : List String := ["tga", "png"]

inductive SettingsFault where
  | emptySize (width height : UInt64)
  | noDepthLevels
  | rotationNotFinite (degrees : Float)
  | focalDistanceNotPositive (distance : Float)
  | unknownProjection (name : String)
  | unknownFormat (format : String)
  | badColor (cause : ColorError)

def SettingsFault.message : SettingsFault → String
  | emptySize width height => s!"图像尺寸必须大于零: {width.toNat}x{height.toNat}"
  | noDepthLevels => "深度量化级别必须大于零"
  | rotationNotFinite degrees => s!"无效的旋转角: {inMessage degrees}"
  | focalDistanceNotPositive distance => s!"焦距必须是正的有限值: {inMessage distance}"
  | unknownProjection name => s!"未知的投影类型: {name}"
  | unknownFormat format =>
    let choices := ", ".intercalate (outputFormats.map Text.Quoted.ofText)
    s!"不支持的输出格式: {format}（可选 [{choices}]）"
  | badColor cause => cause.message

/-- A colour that could not be read and gave way to white. -/
structure ColorFallback where
  cause : ColorError

def ColorFallback.message (w : ColorFallback) : String := s!"{w.cause.message}，使用白色"

def colorOrWhite (text : String) : Rgb × List ColorFallback :=
  match readRgb text with
  | .ok color => (color, [])
  | .error cause => (Rgb.white, [⟨cause⟩])

namespace Settings

def isPerspective (s : Settings) : Bool := s.projection == "perspective"

/-- Finds the first fault, in the order size, depth levels, rotation, projection, format and
colours. -/
def validate (s : Settings) : Except SettingsFault Unit := do
  if s.width = 0 ∨ s.height = 0 then throw (.emptySize s.width s.height)
  if s.depthLevels = 0 then throw .noDepthLevels
  if !s.rotationDegrees.isFinite then throw (.rotationNotFinite s.rotationDegrees)
  if s.projection = "perspective" then
    if !s.focalDistance.isFinite || decide (s.focalDistance ≤ 0) then
      throw (.focalDistanceNotPositive s.focalDistance)
  else if s.projection ≠ "orthographic" then throw (.unknownProjection s.projection)
  if !outputFormats.contains s.format then throw (.unknownFormat s.format)
  discard ((readRgb s.solidColor).mapError .badColor)
  discard ((readRgb s.wireColor).mapError .badColor)

/-- The projection. Every name but that of the perspective stands for the orthographic one. -/
def projectionMode (s : Settings) : Projection Float :=
  if s.isPerspective then .perspective s.focalDistance else .orthographic

def camera (s : Settings) : Camera :=
  { radians := Geometry.radiansOfDegrees s.rotationDegrees, projection := s.projectionMode }

def faceColoring (s : Settings) : FaceColoring × List ColorFallback :=
  if s.colorize then (.random s.seed, [])
  else
    let (color, warnings) := colorOrWhite s.solidColor
    (.solid color, warnings)

/-- The colour of outlines, if they are drawn. -/
def wireRgb (s : Settings) : Option Rgb × List ColorFallback :=
  if s.wireframe then
    let (color, warnings) := colorOrWhite s.wireColor
    (some color, warnings)
  else (none, [])

def picturePath (s : Settings) (name : String) : Files.Path :=
  (Files.Path.mk s.outputDir).join ⟨name ++ "." ++ s.format⟩

def colorPath (s : Settings) : Files.Path := s.picturePath s.colorName

def depthPath (s : Settings) : Files.Path := s.picturePath s.depthName

end Settings

end DepthRaster
