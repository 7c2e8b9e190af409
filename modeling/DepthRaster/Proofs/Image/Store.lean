import DepthRaster.Proofs.Image.Pixel
import Mathlib.Algebra.Group.Nat.Defs
import Mathlib.Data.List.Induction
/-!
# Images as stores of pixels

An image takes settings one after the other. One inside the image that brings a byte for each
channel changes its pixel and no other, and any other setting is refused and changes nothing. So a
pixel shows the last setting of it that was taken. Where the bytes of an image can be counted in
words of 64 bits their places are right in words too.
-/

namespace DepthRaster.Image

structure PixelSetting where
  x : Int
  y : Int
  color : List UInt8
deriving DecidableEq, Repr

namespace PixelSetting

def place (s : PixelSetting) : Int × Int := (s.x, s.y)

/-- Whether a setting is of a pixel and brings a byte for each channel. -/
def isOf (format : PixelFormat) (x y : Int) (s : PixelSetting) : Bool :=
  decide ((s.x = x ∧ s.y = y) ∧ format.channels ≤ s.color.length)

def last? (format : PixelFormat) (settings : List PixelSetting) (x y : Int) : Option PixelSetting :=
  (settings.filter (isOf format x y)).getLast?

theorem last?_append_singleton (format : PixelFormat) (settings : List PixelSetting)
    (s : PixelSetting) (x y : Int) :
    last? format (settings ++ [s]) x y =
      if isOf format x y s then some s else last? format settings x y := by
  rw [last?, List.filter_append, List.getLast?_append]
  split_ifs with h
  · rw [List.filter_cons_of_pos h]
    rfl
  · rw [List.filter_cons_of_neg h]
    rfl

end PixelSetting

def afterSettings (image : Image) (settings : List PixelSetting) : Image :=
  image.setAll PixelSetting.place PixelSetting.color settings

section

variable {image : Image} {x y : Int}

theorem afterSettings_append_singleton (settings : List PixelSetting) (s : PixelSetting) :
    image.afterSettings (settings ++ [s]) =
      ((image.afterSettings settings).setPixel s.x s.y s.color).1 :=
  List.foldl_append

theorem setPixel_snd_iff (image : Image) (x y : Int) (color : List UInt8) :
    (image.setPixel x y color).2 = true ↔
      image.Has x y ∧ image.format.channels ≤ color.length := by
  by_cases h : image.Has x y ∧ image.format.channels ≤ color.length
  · rw [setPixel_eq_overwriteAt h.1 h.2]
    exact iff_of_true rfl h
  · rw [setPixel_eq_self h]
    exact iff_of_false Bool.false_ne_true h

theorem getPixel_setPixel (hin : image.Has x y) (s : PixelSetting) :
    (image.setPixel s.x s.y s.color).1.getPixel x y =
      if s.isOf image.format x y then some (s.color.take image.format.channels)
      else image.getPixel x y := by
  simp only [PixelSetting.isOf, decide_eq_true_eq]
  split_ifs with h
  · obtain ⟨⟨rfl, rfl⟩, hlong⟩ := h
    exact getPixel_setPixel_self hin hlong
  · by_cases hat : s.x = x ∧ s.y = y
    · rw [setPixel_eq_self fun htaken => h ⟨hat, htaken.2⟩]
    · exact getPixel_setPixel_of_ne image s.color hat

theorem getPixel_afterSettings (hin : image.Has x y) (settings : List PixelSetting) :
    (image.afterSettings settings).getPixel x y =
      (PixelSetting.last? image.format settings x y).elim (image.getPixel x y)
        fun s => some (s.color.take image.format.channels) := by
  induction settings using List.reverseRecOn with
  | nil => rfl
  | append_singleton settings s ih =>
      obtain ⟨hwidth, hheight, hformat⟩ :
          (image.afterSettings settings).width = image.width ∧
            (image.afterSettings settings).height = image.height ∧
            (image.afterSettings settings).format = image.format :=
        shape_setAll PixelSetting.place PixelSetting.color image settings
      have hin' : (image.afterSettings settings).Has x y := by rwa [Has, hwidth, hheight]
      rw [afterSettings_append_singleton, getPixel_setPixel hin', hformat,
        PixelSetting.last?_append_singleton]
      split_ifs
      · rfl
      · exact ih

end

/-! ## Places in words -/

/-- The place of the first byte of a pixel, computed in words of 64 bits. -/
def wordStart (width channels : Nat) (x y : Int) : UInt64 :=
  (UInt64.ofNat y.toNat * UInt64.ofNat width + UInt64.ofNat x.toNat) * UInt64.ofNat channels

theorem toNat_wordStart {image : Image} (hsize : image.bytes.size < 2 ^ 64) {x y : Int}
    (hin : image.Has x y) :
    (wordStart image.width image.format.channels x y).toNat = image.start x y := by
  have hfits := start_add_le hin
  rw [wordStart, ← UInt64.ofNat_mul, ← UInt64.ofNat_add, ← UInt64.ofNat_mul]
  exact UInt64.toNat_ofNat_of_lt' (show image.start x y < 2 ^ 64 by omega)

/-- An image that was blank at first takes any settings and keeps its size. Words of 64 bits give
this size and the place of each pixel, which ends before the end of the bytes. The next setting is
taken just when it lies in the image and brings a byte for each channel; refused, it changes
nothing. A pixel shows the last setting of it that was taken, or zeros; what is outside shows
nothing. -/
theorem afterSettings_stores {width height : Nat} {format : PixelFormat}
    (hfits : width * height * format.channels < 2 ^ 64) (settings : List PixelSetting) :
    let image := (blank width height format).afterSettings settings
    ((image.width = width ∧ image.height = height ∧ image.format = format) ∧
      image.bytes.size = width * height * format.channels ∧
      (UInt64.ofNat width * UInt64.ofNat height * UInt64.ofNat format.channels).toNat =
        image.bytes.size) ∧
    (∀ x y, image.Has x y →
      offset? width height format.channels x y =
          some (wordStart width format.channels x y).toNat ∧
        (wordStart width format.channels x y).toNat + format.channels ≤ image.bytes.size) ∧
    (∀ x y color, ((image.setPixel x y color).2 = true ↔
        image.Has x y ∧ format.channels ≤ color.length) ∧
      ((image.setPixel x y color).2 = false → (image.setPixel x y color).1 = image)) ∧
    ∀ x y, image.getPixel x y =
      if image.Has x y then
        some ((PixelSetting.last? format settings x y).elim (List.replicate format.channels 0)
          fun s => s.color.take format.channels)
      else none := by
  intro image
  obtain ⟨hwidth, hheight, hformat⟩ :
      image.width = width ∧ image.height = height ∧ image.format = format :=
    shape_setAll PixelSetting.place PixelSetting.color (blank width height format) settings
  have hsize : image.bytes.size = width * height * format.channels := by
    rw [image.size_bytes, hwidth, hheight, hformat]
  refine ⟨⟨⟨hwidth, hheight, hformat⟩, hsize, ?_⟩, fun x y hin => ?_, fun x y color => ?_,
    fun x y => ?_⟩
  · rw [← UInt64.ofNat_mul, ← UInt64.ofNat_mul, hsize]
    exact UInt64.toNat_ofNat_of_lt' hfits
  · have hstart := toNat_wordStart (hsize ▸ hfits) hin
    rw [hwidth, hformat] at hstart
    have hoffset := offset?_eq_some image hin
    rw [hwidth, hheight, hformat] at hoffset
    rw [hstart, hoffset]
    exact ⟨rfl, hformat ▸ start_add_le hin⟩
  · have htaken := image.setPixel_snd_iff x y color
    refine ⟨hformat ▸ htaken, fun hrefused => ?_⟩
    rw [setPixel_eq_self fun h => Bool.false_ne_true (hrefused.symm.trans (htaken.mpr h))]
  · split_ifs with hin
    · have hin' : (blank width height format).Has x y := by rwa [Has, hwidth, hheight] at hin
      refine (getPixel_afterSettings hin' settings).trans ?_
      rw [getPixel_blank hin']
      change (PixelSetting.last? format settings x y).elim _ _ = _
      cases PixelSetting.last? format settings x y <;> rfl
    · exact getPixel_eq_none hin

/-- Two settings of one pixel that are taken, the later one with a byte to spare, and after them one
of too few bytes and one beside the image. -/
theorem afterSettings_stores_of_repeated :
    let settings : List PixelSetting :=
      [⟨2, 1, [1, 2, 3]⟩, ⟨2, 1, [4, 5, 6, 7]⟩, ⟨2, 1, [8, 9]⟩, ⟨-1, 2, [1, 1, 1]⟩]
    let image := (blank 3 2 .rgb).afterSettings settings
    3 * 2 * PixelFormat.rgb.channels < 2 ^ 64 ∧ image.getPixel 2 1 = some [4, 5, 6] ∧
      image.getPixel 0 1 = some [0, 0, 0] ∧ image.getPixel 3 0 = none ∧
      (image.setPixel 0 (-2147483648) [1, 1, 1]).1 = image := by
  intro settings image
  have hfits : 3 * 2 * PixelFormat.rgb.channels < 2 ^ 64 := by decide
  obtain ⟨-, -, hset, hshown⟩ := afterSettings_stores hfits settings
  exact ⟨hfits, hshown 2 1, hshown 0 1, hshown 3 0, (hset 0 (-2147483648) [1, 1, 1]).2 rfl⟩

end DepthRaster.Image
