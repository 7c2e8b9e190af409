import DepthRaster.Render.Rendering
import DepthRaster.Image.File
import DepthRaster.Settings.Basic
/-!
# Saving renderings

The images of a rendering go to the output directory, which is made if need be: first the colour
image, then the depth image unless it is not wanted.
-/

namespace DepthRaster.Render

open Files (Access OsError Path)
open Image (Codec)

inductive SaveFailure where
  | directory (path : Path) (cause : OsError)
  | image (cause : Image.WriteError)
deriving DecidableEq, Repr

def SaveFailure.message : SaveFailure → String
  | directory path cause => s!"创建输出目录 '{path.text}' 失败: {cause.message}"
  | image cause => cause.message

variable {m : Type → Type} [Monad m]

def ensureDirectory (access : Access m) (path : Path) : ExceptT SaveFailure m Unit := do
  match ← access.makeDirectories path with
  | .ok () => return ()
  | .error cause => throw (.directory path cause)

def saveImage (access : Access m) (image : Image) (path : Path)
    (codec : Codec := Image.tgaAndPng) : ExceptT SaveFailure m Unit := do
  match ← (image.writeFile access path codec).run with
  | .ok () => return ()
  | .error cause => throw (.image cause)

/-- Writes the images of a rendering where the settings want them. -/
def Rendering.save {ε : Type} (access : Access m) (rendering : Rendering ε) (s : Settings)
    (codec : Codec := Image.tgaAndPng) : ExceptT SaveFailure m Unit := do
  ensureDirectory access ⟨s.outputDir⟩
  saveImage access rendering.color s.colorPath codec
  if s.saveDepth then saveImage access rendering.depth s.depthPath codec

end DepthRaster.Render
