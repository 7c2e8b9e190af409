import DepthRaster.Proofs.Image.Pixel
import Mathlib.Algebra.Group.Nat.Defs
/-!
# Images made of the pixels of others

An image of any size can be made of the pixels of another one, one for each of its own. A corner of
an image and its transpose are of this kind.
-/

namespace DepthRaster.Image

def gather (image : Image) (width height : Nat) (source : Nat → Nat → Nat × Nat) : Image where
  width := width
  height := height
  format := image.format
  bytes := Array.ofFn fun i : Fin (width * height * image.format.channels) =>
    let cell := i.val / image.format.channels
    let place := source (cell % width) (cell / width)
    image.bytes[image.start place.1 place.2 + i.val % image.format.channels]?.getD 0
  size_bytes := Array.size_ofFn

/-- The lower left corner of an image. -/
def crop (image : Image) (width height : Nat) : Image := image.gather width height fun x y => (x, y)

def transposed (image : Image) : Image := image.gather image.height image.width fun x y => (y, x)

variable {image : Image} {width height : Nat} {source : Nat → Nat → Nat × Nat}

private theorem mul_add_div_of_lt {q d r : Nat} (h : r < d) : (q * d + r) / d = q := by
  rw [Nat.mul_comm, Nat.mul_add_div (Nat.zero_lt_of_lt h), Nat.div_eq_of_lt h, Nat.add_zero]

theorem getElem?_bytes_gather {x y i : Nat} (hx : x < width) (hy : y < height)
    (hi : i < image.format.channels) :
    (image.gather width height source).bytes[
        (image.gather width height source).start x y + i]? =
      some (image.bytes[image.start (source x y).1 (source x y).2 + i]?.getD 0) := by
  have hstart : (image.gather width height source).start x y =
      (y * width + x) * image.format.channels := rfl
  have hin : (image.gather width height source).Has x y := has_of_lt hx hy
  have hbound : (y * width + x) * image.format.channels + i <
      width * height * image.format.channels := by
    have hfits := start_add_le hin
    rw [hstart, Image.size_bytes] at hfits
    exact Nat.lt_of_lt_of_le (Nat.add_lt_add_left hi _) hfits
  rw [hstart]
  simp only [gather, Array.getElem?_ofFn, dif_pos hbound, mul_add_div_of_lt hi,
    mul_add_div_of_lt hx, Nat.mul_add_mod_of_lt hi, Nat.mul_add_mod_of_lt hx]

theorem getPixel_gather {x y : Nat} (hx : x < width) (hy : y < height)
    (hsource : image.Has (source x y).1 (source x y).2) :
    (image.gather width height source).getPixel x y =
      image.getPixel (source x y).1 (source x y).2 := by
  have hin : (image.gather width height source).Has x y := has_of_lt hx hy
  rw [getPixel_eq_extract hin, getPixel_eq_extract hsource]
  congr 1
  apply List.ext_getElem?
  intro i
  rw [getElem?_extract_start hin, getElem?_extract_start hsource]
  change (if i < image.format.channels then _ else _) = _
  split_ifs with hi
  · have hfits := start_add_le hsource
    rw [getElem?_bytes_gather hx hy hi,
      Array.getElem?_eq_getElem (Nat.lt_of_lt_of_le (Nat.add_lt_add_left hi _) hfits)]
    rfl
  · rfl

theorem getPixel_crop {x y : Nat} (hx : x < width ∧ x < image.width)
    (hy : y < height ∧ y < image.height) :
    (image.crop width height).getPixel x y = image.getPixel x y :=
  getPixel_gather hx.1 hy.1 (has_of_lt hx.2 hy.2)

theorem getPixel_transposed (x y : Int) : image.transposed.getPixel x y = image.getPixel y x := by
  by_cases hin : image.Has y x
  · obtain ⟨y, x, rfl, rfl, hy, hx⟩ := hin.exists_nat
    exact getPixel_gather hx hy (has_of_lt hy hx)
  · have hout : ¬ image.transposed.Has x y := fun h => hin ⟨h.2.1, h.1, h.2.2.2, h.2.2.1⟩
    rw [getPixel_eq_none hin, getPixel_eq_none hout]

end DepthRaster.Image
