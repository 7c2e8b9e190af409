import DepthRaster.Proofs.Lists
import DepthRaster.Proofs.Raster.Export
/-!
# Exported bytes

The bytes of a frame buffer are read off its samples one after the other, while its images are set
pixel by pixel. Both come to the image that shows, of each sample, its colour or its depth.
-/

namespace DepthRaster

theorem Image.getPixel_of_flatten {image : Image} {parts : List (List UInt8)}
    (hbytes : image.bytes.toList = parts.flatten)
    (hparts : ∀ part ∈ parts, part.length = image.format.channels) {x y : ℕ}
    (hin : image.Has x y) {part : List UInt8} (hpart : parts[y * image.width + x]? = some part) :
    image.getPixel x y = some part := by
  have htaken := take_drop_flatten hparts (y * image.width + x)
  rw [hpart, Option.getD_some] at htaken
  rw [getPixel_eq_extract hin, Array.toList_extract, List.extract, Nat.add_sub_cancel_left, hbytes]
  exact congrArg some htaken

namespace Raster.FrameBuffer

/-! ## Images of samples -/

section

variable (fb : FrameBuffer) (format : PixelFormat) (shown : Sample → List UInt8)
  (hshown : ∀ s, (shown s).length = format.channels)

def picture : Image where
  width := fb.width
  height := fb.height
  format := format
  bytes := (fb.samples.toList.flatMap shown).toArray
  size_bytes := by
    simp [List.length_flatMap, hshown, fb.size_samples]

theorem getElem?_samples {x y : ℕ} (hx : x < fb.width) (hy : y < fb.height) :
    fb.samples[y * fb.width + x]? = fb.sampleAt x y := by
  rw [sampleAt, dif_pos ⟨hx, hy⟩]
  exact Array.getElem?_eq_getElem _

theorem getPixel_picture {x y : ℕ} (hx : x < fb.width) (hy : y < fb.height) :
    (fb.picture format shown hshown).getPixel x y = (fb.sampleAt x y).map shown := by
  have hparts : ∀ part ∈ fb.samples.toList.map shown, part.length = format.channels := by
    intro part hpart
    obtain ⟨s, -, rfl⟩ := List.mem_map.mp hpart
    exact hshown s
  have hpart : (fb.samples.toList.map shown)[y * fb.width + x]? =
      some (shown (fb.sampleOrEmpty (x, y))) := by
    rw [List.getElem?_map, Array.getElem?_toList, fb.getElem?_samples hx hy, sampleAt_eq_some hx hy]
    rfl
  rw [sampleAt_eq_some hx hy]
  exact Image.getPixel_of_flatten List.flatMap_def hparts (Image.has_of_lt hx hy) hpart

theorem eq_picture {image : Image} (hwidth : image.width = fb.width)
    (hheight : image.height = fb.height) (hformat : image.format = format)
    (hpixel : ∀ x < fb.width, ∀ y < fb.height,
      image.getPixel x y = (fb.sampleAt x y).map shown) :
    image = fb.picture format shown hshown := by
  apply Image.ext_getPixel hwidth hheight hformat
  intro x y hin
  obtain ⟨x, y, rfl, rfl, hx, hy⟩ := hin.exists_nat
  rw [hwidth] at hx
  rw [hheight] at hy
  rw [hpixel x hx y hy, fb.getPixel_picture format shown hshown hx hy]

end

/-! ## Bytes -/

def colorPicture (fb : FrameBuffer) : Image := fb.picture .rgb (·.color.toList) fun _ => rfl

def depthPicture (fb : FrameBuffer) : Image := fb.picture .gray (fun s => [s.depth]) fun _ => rfl

theorem bytes_colorPicture (fb : FrameBuffer) : fb.colorPicture.bytes = fb.colorBytes := by
  apply Array.toList_inj.mp
  rw [colorBytes, Array.toList_flatMap]
  rfl

theorem bytes_depthPicture (fb : FrameBuffer) : fb.depthPicture.bytes = fb.depthBytes := by
  apply Array.toList_inj.mp
  rw [depthBytes, Array.toList_map]
  exact List.flatMap_pure_eq_map Sample.depth fb.samples.toList

theorem toImages_eq_pictures {fb : FrameBuffer} (hwidth : fb.width ≤ 2 ^ 31)
    (hheight : fb.height ≤ 2 ^ 31) : fb.toImages = (fb.colorPicture, fb.depthPicture) := by
  obtain ⟨⟨hcw, hch⟩, hdw, hdh⟩ := fb.shape_toImages
  obtain ⟨hcolor, hdepth⟩ := fb.format_toImages
  have hpixel {x y : ℕ} (hx : x < fb.width) (hy : y < fb.height) :=
    getPixel_toImages hwidth hheight hx hy (sampleAt_eq_some hx hy)
  apply Prod.ext
  · refine fb.eq_picture _ _ (fun _ => rfl) hcw hch hcolor fun x hx y hy => ?_
    rw [(hpixel hx hy).1, sampleAt_eq_some hx hy]
    rfl
  · refine fb.eq_picture _ _ (fun _ => rfl) hdw hdh hdepth fun x hx y hy => ?_
    rw [(hpixel hx hy).2, sampleAt_eq_some hx hy]
    rfl

/-- After any writes to a buffer whose columns and rows all have coordinates, both images have its
size, their bytes are those read off the samples, and every pixel shows the colour and the depth
that the buffer gives for it. -/
theorem toImages_agrees {width height : ℕ} (hwidth : width ≤ 2 ^ 31) (hheight : height ≤ 2 ^ 31)
    (writes : List Write) :
    let fb := (empty width height).writeAll writes
    let color := fb.toImages.1
    let depth := fb.toImages.2
    (color.width = width ∧ color.height = height ∧ color.format = .rgb) ∧
      (depth.width = width ∧ depth.height = height ∧ depth.format = .gray) ∧
      color.bytes = fb.colorBytes ∧ depth.bytes = fb.depthBytes ∧
      ∀ x < width, ∀ y < height, ∃ c d, fb.colorAt x y = some c ∧ fb.depthAt x y = some d ∧
        color.getPixel x y = some c.toList ∧ depth.getPixel x y = some [d] := by
  intro fb color depth
  have hw : fb.width = width := width_writeAll (empty width height) writes
  have hh : fb.height = height := height_writeAll (empty width height) writes
  obtain ⟨⟨hcw, hch⟩, hdw, hdh⟩ := fb.shape_toImages
  obtain ⟨hcolor, hdepth⟩ := fb.format_toImages
  have himages := toImages_eq_pictures (hw.trans_le hwidth) (hh.trans_le hheight)
  refine ⟨⟨hcw.trans hw, hch.trans hh, hcolor⟩, ⟨hdw.trans hw, hdh.trans hh, hdepth⟩, ?_, ?_, ?_⟩
  · exact (congrArg (·.1.bytes) himages).trans fb.bytes_colorPicture
  · exact (congrArg (·.2.bytes) himages).trans fb.bytes_depthPicture
  · intro x hx y hy
    have hs := sampleAt_eq_some (hx.trans_eq hw.symm) (hy.trans_eq hh.symm)
    obtain ⟨hc, hd⟩ := getPixel_toImages (hw.trans_le hwidth) (hh.trans_le hheight)
      (hx.trans_eq hw.symm) (hy.trans_eq hh.symm) hs
    exact ⟨_, _, congrArg (Option.map Sample.color) hs, congrArg (Option.map Sample.depth) hs,
      hc, hd⟩

/-- A buffer of three columns and two rows, with a write that is hidden by a nearer one. -/
theorem toImages_agrees_of_hidden :
    let near : Write := { x := 2, y := 1, depth := 9, order := 1, color := ⟨1, 2, 3⟩ }
    let writes : List Write :=
      [{ near with depth := 5, color := .white }, near, { near with x := 0, depth := 4 }]
    let fb := (empty 3 2).writeAll writes
    fb.toImages.1.bytes = fb.colorBytes ∧ fb.toImages.2.bytes = fb.depthBytes ∧
      fb.depthBytes = #[0, 0, 0, 4, 0, 9] ∧ fb.toImages.1.getPixel 2 1 = some [1, 2, 3] := by
  intro near writes fb
  have hwidth : 3 ≤ 2 ^ 31 := by decide
  have hheight : 2 ≤ 2 ^ 31 := by decide
  obtain ⟨-, -, hcolor, hdepth, hpixel⟩ := toImages_agrees hwidth hheight writes
  obtain ⟨c, d, hc, -, hshown, -⟩ := hpixel 2 (by decide) 1 (by decide)
  have hnear : fb.colorAt 2 1 = some near.color := by decide +kernel
  obtain rfl := Option.some.inj (hc.symm.trans hnear)
  exact ⟨hcolor, hdepth, by decide +kernel, hshown⟩

end Raster.FrameBuffer

end DepthRaster
