import DepthRaster.Proofs.Raster.Segment
/-!
# Clipped segments

The steps of a segment that are taken are those inside the image. Taking all of them and dropping
the cells outside comes to the same. So what a smaller image shows of a segment is what a larger one
shows there.
-/

namespace DepthRaster.Image

open DepthRaster.Geometry (Cell minCoordinate maxCoordinate)
open Color (Rgb)
open Numeric (Scalar)
open Raster (Segment)

theorem drawSegmentIn_crop (α : Type) [Scalar α] (image : Image) {width height : Nat}
    (hwidth : width ≤ image.width) (hheight : height ≤ image.height) (a b : Cell) (color : Rgb) :
    (image.crop width height).drawSegmentIn α a b color =
      (image.drawSegmentIn α a b color).crop width height := by
  rw [drawSegmentIn_eq, drawSegmentIn_eq]
  refine setCells_gather (fun x hx y hy => ?_) (fun _ _ _ _ => Iff.rfl) color
  exact has_of_lt (hx.trans_le hwidth) (hy.trans_le hheight)

/-- Drawing a segment sets the cells of all its steps, of which the image keeps those inside it. The
other pixels keep their bytes, and a corner of the image shows the same as an image of that size. -/
theorem drawSegment_unclipped (image : Image) (a b : Cell) (color : Rgb) :
    let line := (Segment.between a b).cells Float
    let drawn := image.drawSegment a b color
    drawn = image.setCells line color ∧
      (∀ x y, image.Has x y → ⟨x, y⟩ ∈ line →
        drawn.getPixel x y = some (color.toList.take image.format.channels)) ∧
      (∀ x y, ⟨x, y⟩ ∉ line → drawn.getPixel x y = image.getPixel x y) ∧
      ∀ width height, width ≤ image.width → height ≤ image.height →
        (image.crop width height).drawSegment a b color = drawn.crop width height := by
  intro line drawn
  have hdrawn : drawn = image.setCells line color := drawSegmentIn_eq Float image a b color
  refine ⟨hdrawn, ?_, ?_, fun width height hw hh => drawSegmentIn_crop Float image hw hh a b color⟩
  · intro x y hin hmem
    rw [hdrawn, getPixel_setCells hin, if_pos hmem]
  · intro x y hmiss
    rw [hdrawn]
    by_cases hin : image.Has x y
    · rw [getPixel_setCells hin, if_neg hmiss]
    · obtain ⟨hw, hh, -⟩ := image.shape_setCells line color
      rw [getPixel_eq_none hin, getPixel_eq_none (by rwa [Has, hw, hh])]

/-- From the lowest position to the highest there are 2 ^ 32 steps, two of them in this image. -/
theorem drawSegment_unclipped_of_extremes :
    let drawn := (blank 3 2 .gray).drawSegment ⟨minCoordinate, minCoordinate⟩
      ⟨maxCoordinate, maxCoordinate⟩ .white
    drawn.getPixel 1 1 = some [255] ∧ drawn.getPixel 2 1 = (blank 3 2 .gray).getPixel 2 1 ∧
      (((blank 3 2 .gray).crop 2 2).drawSegment ⟨minCoordinate, minCoordinate⟩
        ⟨maxCoordinate, maxCoordinate⟩ .white).getPixel 1 1 = some [255] := by
  intro drawn
  obtain ⟨-, hlit, hother, hcrop⟩ := drawSegment_unclipped (blank 3 2 .gray)
    ⟨minCoordinate, minCoordinate⟩ ⟨maxCoordinate, maxCoordinate⟩ .white
  have hpixel : drawn.getPixel 1 1 = some [255] :=
    hlit 1 1 (by simp [Has, blank])
      (List.mem_map.mpr ⟨1, Segment.mem_steps.mpr (by decide), by decide +kernel⟩)
  refine ⟨hpixel, hother 2 1 fun hmem => ?_, ?_⟩
  · obtain ⟨n, -, hcell⟩ := List.mem_map.mp hmem
    obtain rfl : n = 2 := congrArg Cell.x hcell
    exact absurd hcell (by decide +kernel)
  · obtain ⟨hw, hh, -⟩ := (blank 3 2 .gray).shape_drawSegment ⟨minCoordinate, minCoordinate⟩
      ⟨maxCoordinate, maxCoordinate⟩ .white
    rw [hcrop 2 2 (by decide) (by decide)]
    exact (getPixel_crop (x := 1) (y := 1) ⟨by decide, by rw [hw]; decide⟩
      ⟨by decide, by rw [hh]; decide⟩).trans hpixel

end DepthRaster.Image
