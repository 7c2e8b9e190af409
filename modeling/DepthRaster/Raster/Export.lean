import DepthRaster.Geometry.Point
import DepthRaster.Image.Basic
import DepthRaster.Raster.FrameBuffer
/-!
# Frame buffers as images

A frame buffer gives a colour image and a gray image of depths.
-/

namespace DepthRaster.Raster

open DepthRaster.Geometry (coordinate)

def FrameBuffer.toImages (fb : FrameBuffer) : Image × Image :=
  (List.range fb.height).foldl (fun (images : Image × Image) (y : Nat) =>
      (List.range fb.width).foldl (fun (images : Image × Image) (x : Nat) =>
          match images, fb.sampleAt x y with
          | (color, depth), some s =>
            ((color.setPixel (coordinate x) (coordinate y) s.color.toList).1,
              (depth.setPixel (coordinate x) (coordinate y) [s.depth]).1)
          | images, none => images)
        images)
    (Image.blank fb.width fb.height .rgb, Image.blank fb.width fb.height .gray)

end DepthRaster.Raster
