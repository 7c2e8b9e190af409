import DepthRaster.Geometry.Rotation
import DepthRaster.Geometry.Projection
import DepthRaster.Numeric.Written
/-!
# Projectors

A projector takes a point of a model to a corner on the screen: it turns the point about the
vertical axis, projects it and places it in the viewport.
-/

namespace DepthRaster.Geometry

open Numeric.Written (inMessage asLiteral)

def defaultFocalDistance : Float := 3

def defaultDegrees : Float := 30

def maxDepthLevels : UInt8 := 255

structure Camera where
  radians : Float := radiansOfDegrees defaultDegrees
  projection : Projection Float := .perspective defaultFocalDistance

inductive PlacementError where
  | notFinite (point : Point Float)
  | onFocalPlane (cause : OnFocalPlane Float)

def PlacementError.message : PlacementError → String
  | .notFinite p =>
    let coordinates := ", ".intercalate [asLiteral p.x, asLiteral p.y, asLiteral p.z]
    s!"顶点坐标不是有限值: [{coordinates}]"
  | .onFocalPlane ⟨p, focalDistance⟩ =>
    let coordinates := ", ".intercalate [inMessage p.x, inMessage p.y, inMessage p.z]
    s!"点 ({coordinates}) 位于相机焦平面 z = {inMessage focalDistance} 上或其后方，无法投影"

structure Projector where
  rotation : Matrix Float
  projection : Projection Float
  viewport : Viewport

namespace Projector

def ofCamera (camera : Camera) (viewport : Viewport) : Projector :=
  ⟨.turn camera.radians, camera.projection, viewport⟩

def rotate (projector : Projector) (p : Point Float) : Point Float := projector.rotation.apply p

def project (projector : Projector) (p : Point Float) : Except PlacementError ScreenVertex :=
  if p.x.isFinite && p.y.isFinite && p.z.isFinite then
    match projector.projection.divide (projector.rotate p) with
    | .ok image => .ok (projector.viewport.place image)
    | .error cause => .error (.onFocalPlane cause)
  else
    .error (.notFinite p)

end Projector

end DepthRaster.Geometry
