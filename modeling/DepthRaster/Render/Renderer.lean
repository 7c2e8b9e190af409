import DepthRaster.Render.Rendering
import DepthRaster.Geometry.Projector
import DepthRaster.Settings.Basic
/-!
# Renderers

A renderer draws meshes as a camera sees them.
-/

namespace DepthRaster.Render

open Color (Rgb FaceColoring)
open DepthRaster.Geometry (Camera PlacementError Projector)

structure Renderer where
  projector : Projector
  coloring : FaceColoring := .random 0
  shared : Bool := true
  wire : Option Rgb := none

namespace Renderer

def ofCamera (width height : Nat) (camera : Camera) : Renderer where
  projector := .ofCamera camera ⟨width, height, Geometry.maxDepthLevels⟩

/-- The renderer of settings, which have to be valid. -/
def ofSettings (s : Settings) : Except SettingsFault (Renderer × List ColorFallback) := do
  s.validate
  let viewport : Geometry.Viewport := ⟨s.width.toNat, s.height.toNat, s.depthLevels⟩
  let (coloring, colorFallbacks) := s.faceColoring
  let (wire, wireFallbacks) := s.wireRgb
  let renderer : Renderer := {
    projector := .ofCamera s.camera viewport
    coloring
    shared := s.multithreaded
    wire }
  return (renderer, colorFallbacks ++ wireFallbacks)

def canvas (renderer : Renderer) : Canvas where
  width := renderer.projector.viewport.width
  height := renderer.projector.viewport.height
  shared := renderer.shared
  wire := renderer.wire

def render (renderer : Renderer) (mesh : Mesh) : Rendering PlacementError :=
  renderer.canvas.render mesh.corners renderer.projector.project renderer.coloring.colorOf

end Renderer

end DepthRaster.Render
