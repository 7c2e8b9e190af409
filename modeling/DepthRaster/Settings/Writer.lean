import DepthRaster.Settings.Basic
import DepthRaster.Files.Access
/-!
# Writing settings

Settings are written as a file of four sections, one key a line.
-/

namespace DepthRaster.Settings

open Numeric.Written (asLiteral)
open Text

def pairLine (key value : String) : String := key ++ " = " ++ value ++ "\n"

def booleanText (b : Bool) : String := if b then "true" else "false"

def modelLine : Option String → String
  | some path => pairLine "obj" (Quoted.ofText path)
  | none => "# obj = \"path/to/your/model.obj\"\n"

def filesSection (s : Settings) : List String :=
  ["[files]\n",
    modelLine s.model,
    pairLine "output_dir" (Quoted.ofText s.outputDir),
    pairLine "output" (Quoted.ofText s.colorName),
    pairLine "depth_output" (Quoted.ofText s.depthName),
    pairLine "format" (Quoted.ofText s.format)]

def renderSection (s : Settings) : List String :=
  ["[render]\n",
    pairLine "width" (toString s.width.toNat),
    pairLine "height" (toString s.height.toNat),
    pairLine "projection" (Quoted.ofText s.projection),
    pairLine "depth_levels" (toString s.depthLevels.toNat),
    pairLine "use_multithreading" (booleanText s.multithreaded),
    pairLine "wireframe" (booleanText s.wireframe),
    pairLine "save_depth" (booleanText s.saveDepth)]

def cameraSection (s : Settings) : List String :=
  ["[camera]\n",
    pairLine "rotation_degrees" (asLiteral s.rotationDegrees),
    pairLine "focal_distance" (asLiteral s.focalDistance)]

def colorSection (s : Settings) : List String :=
  ["[color]\n",
    pairLine "colorize" (booleanText s.colorize),
    pairLine "seed" (toString s.seed.toNat),
    pairLine "solid" (Quoted.ofText s.solidColor),
    pairLine "wireframe" (Quoted.ofText s.wireColor)]

def toText (s : Settings) : String :=
  String.join (["# 光栅化渲染器配置文件\n", "\n"] ++ s.filesSection ++ ["\n"] ++ s.renderSection ++
    ["\n"] ++ s.cameraSection ++ ["\n"] ++ s.colorSection)

structure SaveError where
  cause : Files.OsError
deriving DecidableEq, Repr

def SaveError.message (e : SaveError) : String := s!"写入配置文件失败: {e.cause.message}"

def save {m : Type → Type} [Monad m] (access : Files.Access m) (s : Settings)
    (path : Files.Path) : m (Except SaveError Unit) := do
  match ← access.write path s.toText.toUTF8.data with
  | .error cause => return .error ⟨cause⟩
  | .ok () => return .ok ()

end DepthRaster.Settings
