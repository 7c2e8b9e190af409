import DepthRaster.Proofs.Image.Pixel
import DepthRaster.Proofs.Lists
import DepthRaster.Proofs.Raster.FrameBuffer
import DepthRaster.Raster.Export
/-!
# Exported pixels

Both images of a frame buffer have its size, and each pixel of theirs shows the colour and the depth
of the sample there, as long as every column and row has a coordinate.
-/

namespace DepthRaster.Raster.FrameBuffer

open DepthRaster.Geometry (coordinate)

theorem coordinate_eq {n : Nat} (h : n < 2 ^ 31) : coordinate n = n := by
  unfold coordinate UInt32.size
  rw [Int.bmod_eq_of_le] <;> omega

def pixelsByRow (fb : FrameBuffer) : List (Nat × Nat) :=
  (List.range fb.height).flatMap fun y => (List.range fb.width).map fun x => (x, y)

theorem mem_pixelsByRow {fb : FrameBuffer} {p : Nat × Nat} :
    p ∈ fb.pixelsByRow ↔ p.1 < fb.width ∧ p.2 < fb.height := by
  rw [pixelsByRow, mem_grid, List.mem_range, List.mem_range]

def sampleOrEmpty (fb : FrameBuffer) (p : Nat × Nat) : Sample :=
  (fb.sampleAt p.1 p.2).getD .empty

theorem sampleAt_eq_some {fb : FrameBuffer} {x y : Nat} (hx : x < fb.width)
    (hy : y < fb.height) : fb.sampleAt x y = some (fb.sampleOrEmpty (x, y)) := by
  simp [sampleOrEmpty, sampleAt, hx, hy]

private theorem foldl_pair {ι β γ : Type} (f : β → ι → β) (g : γ → ι → γ) (items : List ι)
    (b : β) (c : γ) :
    items.foldl (fun s i => (f s.1 i, g s.2 i)) (b, c) =
      (items.foldl f b, items.foldl g c) := by
  induction items generalizing b c with
  | nil => rfl
  | cons i items ih => exact ih _ _

def place (p : Nat × Nat) : Int × Int := (coordinate p.1, coordinate p.2)

theorem toImages_eq (fb : FrameBuffer) :
    fb.toImages =
      ((Image.blank fb.width fb.height .rgb).setAll place
          (fun p => (fb.sampleOrEmpty p).color.toList) fb.pixelsByRow,
        (Image.blank fb.width fb.height .gray).setAll place
          (fun p => [(fb.sampleOrEmpty p).depth]) fb.pixelsByRow) := by
  unfold toImages Image.setAll
  rw [← foldl_pair, pixelsByRow, List.foldl_flatMap]
  apply List.foldl_ext
  intro images y hy
  rw [List.foldl_map]
  apply List.foldl_ext
  intro images x hx
  simp only [sampleAt_eq_some (List.mem_range.mp hx) (List.mem_range.mp hy), place]

theorem place_inj {fb : FrameBuffer} (hwidth : fb.width ≤ 2 ^ 31) (hheight : fb.height ≤ 2 ^ 31)
    {p : Nat × Nat} (hp : p ∈ fb.pixelsByRow) {x y : Nat} :
    place p = ((x : Int), (y : Int)) ↔ p = (x, y) := by
  obtain ⟨hx, hy⟩ := mem_pixelsByRow.mp hp
  obtain ⟨x', y'⟩ := p
  simp only [place, coordinate_eq (Nat.lt_of_lt_of_le hx hwidth),
    coordinate_eq (Nat.lt_of_lt_of_le hy hheight), Prod.mk.injEq, Int.natCast_inj]

theorem shape_toImages (fb : FrameBuffer) :
    (fb.toImages.1.width = fb.width ∧ fb.toImages.1.height = fb.height) ∧
      fb.toImages.2.width = fb.width ∧ fb.toImages.2.height = fb.height := by
  rw [toImages_eq]
  have hcolor := Image.shape_setAll place (fun p => (fb.sampleOrEmpty p).color.toList)
    (Image.blank fb.width fb.height .rgb) fb.pixelsByRow
  have hdepth := Image.shape_setAll place (fun p => [(fb.sampleOrEmpty p).depth])
    (Image.blank fb.width fb.height .gray) fb.pixelsByRow
  exact ⟨⟨hcolor.1, hcolor.2.1⟩, hdepth.1, hdepth.2.1⟩

theorem format_toImages (fb : FrameBuffer) :
    fb.toImages.1.format = .rgb ∧ fb.toImages.2.format = .gray := by
  rw [toImages_eq]
  exact ⟨(Image.shape_setAll _ _ (Image.blank fb.width fb.height .rgb) _).2.2,
    (Image.shape_setAll _ _ (Image.blank fb.width fb.height .gray) _).2.2⟩

theorem depthImage_congr {a b : FrameBuffer} (hwidth : a.width = b.width)
    (hheight : a.height = b.height)
    (h : ∀ x < a.width, ∀ y < a.height, a.depthAt x y = b.depthAt x y) :
    a.toImages.2 = b.toImages.2 := by
  have hpixels : b.pixelsByRow = a.pixelsByRow := by rw [pixelsByRow, pixelsByRow, hwidth, hheight]
  rw [toImages_eq, toImages_eq, hpixels, ← hwidth, ← hheight]
  apply List.foldl_ext
  rintro image ⟨x, y⟩ hp
  obtain ⟨hx, hy⟩ := mem_pixelsByRow.mp hp
  have hsame := h x hx y hy
  rw [depthAt, depthAt, sampleAt_eq_some hx hy, sampleAt_eq_some (hwidth ▸ hx) (hheight ▸ hy),
    Option.map_some, Option.map_some, Option.some.injEq] at hsame
  simp only [hsame]

/-- A pixel of both images shows the sample of the buffer there. -/
theorem getPixel_toImages {fb : FrameBuffer} (hwidth : fb.width ≤ 2 ^ 31)
    (hheight : fb.height ≤ 2 ^ 31) {x y : Nat} (hx : x < fb.width) (hy : y < fb.height)
    {s : Sample} (hs : fb.sampleAt x y = some s) :
    fb.toImages.1.getPixel x y = some s.color.toList ∧
      fb.toImages.2.getPixel x y = some [s.depth] := by
  have hmem : (x, y) ∈ fb.pixelsByRow := mem_pixelsByRow.mpr ⟨hx, hy⟩
  have hsample : fb.sampleOrEmpty (x, y) = s := by simp [sampleOrEmpty, hs]
  have hsome : ∃ p ∈ fb.pixelsByRow, place p = ((x : Int), (y : Int)) :=
    ⟨(x, y), hmem, (place_inj hwidth hheight hmem).mpr rfl⟩
  have hsame : ∀ p ∈ fb.pixelsByRow, place p = ((x : Int), (y : Int)) →
      fb.sampleOrEmpty p = s := by
    intro p hp hplace
    rw [(place_inj hwidth hheight hp).mp hplace, hsample]
  rw [toImages_eq]
  constructor
  · exact Image.getPixel_setAll_of_mem place _ (Image.blank fb.width fb.height .rgb)
      fb.pixelsByRow s.color.toList (Image.has_of_lt hx hy)
      (le_refl 3) hsome fun p hp hplace => by rw [hsame p hp hplace]
  · exact Image.getPixel_setAll_of_mem place _ (Image.blank fb.width fb.height .gray)
      fb.pixelsByRow [s.depth] (Image.has_of_lt hx hy)
      (le_refl 1) hsome fun p hp hplace => by rw [hsame p hp hplace]

theorem exists_sampleAt_of_mem_bytes {fb : FrameBuffer} (hwidth : fb.width ≤ 2 ^ 31)
    (hheight : fb.height ≤ 2 ^ 31) {byte : UInt8} (h : byte ∈ fb.toImages.2.bytes) :
    ∃ x y s, fb.sampleAt x y = some s ∧ byte = s.depth := by
  obtain ⟨x, y, hin, color, hpixel, hmem⟩ := Image.exists_getPixel_of_mem_bytes h
  obtain ⟨x, y, rfl, rfl, hx, hy⟩ := hin.exists_nat
  obtain ⟨-, hw, hh⟩ := fb.shape_toImages
  rw [hw] at hx
  rw [hh] at hy
  have hs := sampleAt_eq_some hx hy
  have hshown := (getPixel_toImages hwidth hheight hx hy hs).2
  rw [hpixel, Option.some.injEq] at hshown
  rw [hshown, List.mem_singleton] at hmem
  exact ⟨x, y, _, hs, hmem⟩

end DepthRaster.Raster.FrameBuffer
