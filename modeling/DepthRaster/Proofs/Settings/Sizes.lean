import DepthRaster.Image.File
import DepthRaster.Proofs.Raster.Export
import DepthRaster.Proofs.Settings.Valid
/-!
# Sizes that fit the machine

Sizes and places in buffers are computed in words of 64 bits, columns and rows are also coordinates
of 32 bits with a sign, and files state sides in 32 bits. The check of settings asks for none of
this. All of it holds exactly for sides up to `2 ^ 31`.
-/

namespace DepthRaster.Settings

open DepthRaster.Geometry (coordinate)
open Raster (FrameBuffer)
open Render (Renderer)

/-- What is computed about a picture of a size is true to that size. -/
structure SizeFits (width height : UInt64) : Prop where
  samples : (width * height).toNat = (FrameBuffer.empty width.toNat height.toNat).samples.size
  bytes : ∀ format : PixelFormat, (width * height * UInt64.ofNat format.channels).toNat =
    (Image.blank width.toNat height.toNat format).bytes.size
  /-- The place of a sample. -/
  places : ∀ x y, x < width → y < height →
    (y * width + x).toNat = y.toNat * width.toNat + x.toNat ∧
      (y * width + x).toNat < (FrameBuffer.empty width.toNat height.toNat).samples.size
  /-- The place of the first byte of a pixel. -/
  offsets : ∀ (format : PixelFormat) (x y : UInt64), x < width → y < height →
    Image.offset? width.toNat height.toNat format.channels x.toNat y.toNat =
      some ((y * width + x) * UInt64.ofNat format.channels).toNat
  coordinates : ∀ x y : Nat, x < width.toNat → y < height.toNat →
    coordinate x = x ∧ coordinate y = y
  sides : Image.statedSide width.toNat = width.toNat ∧ Image.statedSide height.toNat = height.toNat

/-! ## Words -/

theorem toNat_mul_of_lt {a b : UInt64} (h : a.toNat * b.toNat < 2 ^ 64) :
    (a * b).toNat = a.toNat * b.toNat := by
  rw [UInt64.toNat_mul, Nat.mod_eq_of_lt h]

theorem toNat_add_of_lt {a b : UInt64} (h : a.toNat + b.toNat < 2 ^ 64) :
    (a + b).toNat = a.toNat + b.toNat := by
  rw [UInt64.toNat_add, Nat.mod_eq_of_lt h]

theorem toNat_channels (format : PixelFormat) :
    (UInt64.ofNat format.channels).toNat = format.channels ∧ format.channels ≤ 3 := by
  cases format <;> decide

section

variable {width height : UInt64} (hwidth : width.toNat ≤ 2 ^ 31) (hheight : height.toNat ≤ 2 ^ 31)

include hwidth hheight

theorem toNat_area : (width * height).toNat = width.toNat * height.toNat ∧
    width.toNat * height.toNat ≤ 2 ^ 62 := by
  have hle : width.toNat * height.toNat ≤ 2 ^ 31 * 2 ^ 31 := Nat.mul_le_mul hwidth hheight
  exact ⟨toNat_mul_of_lt (by omega), by omega⟩

theorem toNat_place {x y : UInt64} (hx : x < width) (hy : y < height) :
    (y * width + x).toNat = y.toNat * width.toNat + x.toNat ∧
      y.toNat * width.toNat + x.toNat < width.toNat * height.toNat := by
  obtain ⟨-, harea⟩ := toNat_area hwidth hheight
  have hlt := FrameBuffer.offset_lt (UInt64.lt_iff_toNat_lt.mp hx) (UInt64.lt_iff_toNat_lt.mp hy)
  have hrow : (y * width).toNat = y.toNat * width.toNat := toNat_mul_of_lt (by omega)
  refine ⟨?_, hlt⟩
  rw [toNat_add_of_lt (by omega), hrow]

theorem sizeFits_of_le : SizeFits width height := by
  obtain ⟨harea, hle⟩ := toNat_area hwidth hheight
  have hscaled (n : UInt64) (hn : n.toNat ≤ 2 ^ 62) (format : PixelFormat) :
      (n * UInt64.ofNat format.channels).toNat = n.toNat * format.channels := by
    obtain ⟨hchannels, hthree⟩ := toNat_channels format
    have hbound := Nat.mul_le_mul hn hthree
    rw [toNat_mul_of_lt (by rw [hchannels]; omega), hchannels]
  constructor
  · rw [harea]
    exact (FrameBuffer.empty width.toNat height.toNat).size_samples.symm
  · intro format
    rw [hscaled _ (harea ▸ hle), harea]
    exact (Image.blank width.toNat height.toNat format).size_bytes.symm
  · intro x y hx hy
    obtain ⟨hplace, hlt⟩ := toNat_place hwidth hheight hx hy
    refine ⟨hplace, ?_⟩
    rw [hplace, (FrameBuffer.empty width.toNat height.toNat).size_samples]
    exact hlt
  · intro format x y hx hy
    obtain ⟨hplace, hlt⟩ := toNat_place hwidth hheight hx hy
    have hx := UInt64.lt_iff_toNat_lt.mp hx
    have hy := UInt64.lt_iff_toNat_lt.mp hy
    rw [hscaled _ (by omega), hplace, Image.offset?, if_pos (by omega), Int.toNat_natCast,
      Int.toNat_natCast]
  · intro x y hx hy
    exact ⟨FrameBuffer.coordinate_eq (by omega), FrameBuffer.coordinate_eq (by omega)⟩
  · constructor
    · exact Nat.mod_eq_of_lt (Nat.lt_of_le_of_lt hwidth (by decide))
    · exact Nat.mod_eq_of_lt (Nat.lt_of_le_of_lt hheight (by decide))

end

/-- The first column past the range of coordinates is taken for one far to the left. -/
theorem coordinate_ne : coordinate (2 ^ 31) ≠ (2 ^ 31 : Nat) := by
  decide

theorem le_of_coordinates {width height : Nat} (hheight : height ≠ 0)
    (h : ∀ x y : Nat, x < width → y < height → coordinate x = x ∧ coordinate y = y) :
    width ≤ 2 ^ 31 := by
  by_contra hlarge
  exact coordinate_ne (h (2 ^ 31) 0 (by omega) (by omega)).1

/-- Settings that pass the check are drawn in their size, whatever it is, and what is computed about
that size is true exactly when no side is longer than `2 ^ 31`. -/
theorem sizeFits_iff {s : Settings} (h : s.validate = .ok ()) :
    (∃ renderer, Renderer.ofSettings s = .ok (renderer, []) ∧
        renderer.canvas.width = s.width.toNat ∧ renderer.canvas.height = s.height.toNat) ∧
      (SizeFits s.width s.height ↔ s.width.toNat ≤ 2 ^ 31 ∧ s.height.toNat ≤ 2 ^ 31) := by
  have hvalid := (validate_eq_ok_iff s).mp h
  obtain ⟨solid, hsolid⟩ := hvalid.solidColor
  obtain ⟨wire, hwire⟩ := hvalid.wireColor
  have hwidth : s.width.toNat ≠ 0 := fun heq => hvalid.width (UInt64.toNat_inj.mp heq)
  have hheight : s.height.toNat ≠ 0 := fun heq => hvalid.height (UInt64.toNat_inj.mp heq)
  refine ⟨?_, fun hfits => ⟨?_, ?_⟩, fun ⟨hw, hh⟩ => sizeFits_of_le hw hh⟩
  · unfold Renderer.ofSettings
    rw [h, faceColoring_of_readRgb hsolid, wireRgb_of_readRgb hwire]
    exact ⟨_, rfl, rfl, rfl⟩
  · exact le_of_coordinates hheight hfits.coordinates
  · exact le_of_coordinates hwidth fun y x hy hx => (hfits.coordinates x y hx hy).symm

theorem sizeFits_of_longest_sides :
    SizeFits 2147483648 2147483648 ∧ ¬ SizeFits 2147483649 1 := by
  obtain ⟨-, hfits⟩ :=
    sizeFits_iff (s := { width := 2147483648, height := 2147483648 }) (by rfl)
  obtain ⟨-, hlong⟩ := sizeFits_iff (s := { width := 2147483649, height := 1 }) (by rfl)
  exact ⟨hfits.mpr (by decide), fun h => absurd (hlong.mp h) (by decide)⟩

/-- The check passes a size whose area is no word: the product of its sides comes out as zero. -/
theorem validate_of_area_zero :
    ({ width := 4294967296, height := 4294967296 } : Settings).validate = .ok () ∧
      (4294967296 * 4294967296 : UInt64) = 0 ∧ ¬ SizeFits 4294967296 4294967296 := by
  refine ⟨rfl, by decide, fun h => ?_⟩
  have hsamples := h.samples
  rw [(FrameBuffer.empty _ _).size_samples] at hsamples
  exact absurd hsamples (by decide)

end DepthRaster.Settings
