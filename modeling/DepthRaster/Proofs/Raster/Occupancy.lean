import DepthRaster.Proofs.Raster.Export
import DepthRaster.Raster.Fill
import Mathlib.Data.Finset.Prod
import Mathlib.Data.Finset.Card
/-!
# Occupied pixels

A write that wins occupies at most one pixel more, so there are never more occupied pixels than
writes that won. The depth image shows no more of them.
-/

namespace DepthRaster

def Image.litPixels (image : Image) : Finset (ℕ × ℕ) :=
  (Finset.range image.width ×ˢ Finset.range image.height).filter fun p =>
    image.getPixel p.1 p.2 ≠ some (List.replicate image.format.channels 0)

namespace Raster.FrameBuffer

/-- The pixels of a buffer that are nearer than the far depth. -/
def occupied (fb : FrameBuffer) : Finset (ℕ × ℕ) :=
  (Finset.range fb.width ×ˢ Finset.range fb.height).filter fun p =>
    fb.depthAt p.1 p.2 ≠ some farDepth

theorem mem_occupied {fb : FrameBuffer} {p : ℕ × ℕ} :
    p ∈ fb.occupied ↔
      (p.1 < fb.width ∧ p.2 < fb.height) ∧ fb.depthAt p.1 p.2 ≠ some farDepth := by
  simp only [occupied, Finset.mem_filter, Finset.mem_product, Finset.mem_range]

@[simp] theorem occupied_empty (width height : ℕ) : (empty width height).occupied = ∅ := by
  rw [Finset.eq_empty_iff_forall_notMem]
  intro p hp
  obtain ⟨⟨hx, hy⟩, hne⟩ := mem_occupied.mp hp
  exact hne (congrArg (Option.map Sample.depth) (sampleAt_empty hx hy))

/-! ## Writes -/

theorem composite_of_lost {fb : FrameBuffer} {w : Write} (h : (fb.composite w).2 = false) :
    (fb.composite w).1 = fb := by
  obtain ⟨width, height, samples, size⟩ := fb
  simp only [composite] at h ⊢
  split_ifs at h ⊢ <;> rfl

theorem occupied_composite_subset (fb : FrameBuffer) (w : Write) :
    (fb.composite w).1.occupied ⊆ insert (w.x, w.y) fb.occupied := by
  intro p hp
  obtain ⟨hin, hne⟩ := mem_occupied.mp hp
  rw [width_composite, height_composite] at hin
  cases hat : w.isAt p.1 p.2 with
  | true =>
      obtain ⟨hx, hy⟩ : w.x = p.1 ∧ w.y = p.2 := by simpa [Write.isAt] using hat
      exact Finset.mem_insert.mpr (.inl (Prod.ext hx.symm hy.symm))
  | false =>
      rw [depthAt, sampleAt_composite_of_not_isAt fb w hat] at hne
      exact Finset.mem_insert_of_mem (mem_occupied.mpr ⟨hin, hne⟩)

theorem card_occupied_composite_le (fb : FrameBuffer) (w : Write) :
    (fb.composite w).1.occupied.card ≤ fb.occupied.card + (fb.composite w).2.toNat := by
  cases hwon : (fb.composite w).2 with
  | false => rw [composite_of_lost hwon]; exact Nat.le_add_right _ _
  | true =>
      calc
        (fb.composite w).1.occupied.card ≤ (insert (w.x, w.y) fb.occupied).card :=
          Finset.card_le_card (fb.occupied_composite_subset w)
        _ ≤ fb.occupied.card + 1 := Finset.card_insert_le _ _

/-- Any writes occupy no more pixels than there are winners among them, and these are no more than
the writes. -/
theorem written_bounds (state : FrameBuffer × FillCounts) (writes : List Write) :
    let result := writes.foldl compositeCounted state
    result.1.occupied.card + state.2.written ≤ state.1.occupied.card + result.2.written ∧
      result.2.written ≤ state.2.written + writes.length := by
  -- A winner may land on an occupied pixel, so the two numbers are bounded by their sum.
  induction writes generalizing state with
  | nil => exact ⟨Nat.le_refl _, Nat.le_refl _⟩
  | cons w writes ih =>
      obtain ⟨fb, counts⟩ := state
      obtain ⟨hoccupied, hlength⟩ := ih (compositeCounted (fb, counts) w)
      have hstep := fb.card_occupied_composite_le w
      have hwon := (fb.composite w).2.toNat_le
      have hbuffer : (compositeCounted (fb, counts) w).1 = (fb.composite w).1 := rfl
      have hwritten : (compositeCounted (fb, counts) w).2.written =
          counts.written + (fb.composite w).2.toNat := rfl
      rw [hbuffer, hwritten] at hoccupied
      rw [hwritten] at hlength
      rw [List.foldl_cons, List.length_cons]
      dsimp only
      omega

/-! ## The depth image -/

theorem exists_occupied_of_mem_litPixels {fb : FrameBuffer} {p : ℕ × ℕ}
    (h : p ∈ fb.toImages.2.litPixels) :
    ∃ q ∈ fb.occupied, place q = ((p.1 : ℤ), (p.2 : ℤ)) := by
  obtain ⟨-, hwidth, hheight⟩ := fb.shape_toImages
  simp only [Image.litPixels, Finset.mem_filter, Finset.mem_product, Finset.mem_range, hwidth,
    hheight, fb.format_toImages.2] at h
  obtain ⟨⟨hx, hy⟩, hne⟩ := h
  have hin : (Image.blank fb.width fb.height .gray).Has p.1 p.2 := Image.has_of_lt hx hy
  rw [toImages_eq] at hne
  rcases Image.getPixel_setAll_eq_or place (fun q => [(fb.sampleOrEmpty q).depth])
    (Image.blank fb.width fb.height .gray) fb.pixelsByRow hin (fun _ => Nat.le_refl 1) with
    hblank | ⟨q, hq, hplace, hvalue⟩
  · exact absurd (hblank.trans (Image.getPixel_blank hin)) hne
  · have hq' := mem_pixelsByRow.mp hq
    refine ⟨q, mem_occupied.mpr ⟨hq', ?_⟩, hplace⟩
    rw [depthAt, sampleAt_eq_some hq'.1 hq'.2]
    intro hfar
    rw [Option.map_some, Option.some.injEq] at hfar
    rw [hvalue, hfar] at hne
    exact hne rfl

/-- Where the depth image is too small to tell all pixels of the buffer apart it shows fewer. -/
theorem card_litPixels_toImages_le (fb : FrameBuffer) :
    fb.toImages.2.litPixels.card ≤ fb.occupied.card := by
  let cell (q : ℕ × ℕ) : ℕ × ℕ := ((place q).1.toNat, (place q).2.toNat)
  have hsubset : fb.toImages.2.litPixels ⊆ fb.occupied.image cell := by
    intro p hp
    obtain ⟨q, hq, hplace⟩ := exists_occupied_of_mem_litPixels hp
    refine Finset.mem_image.mpr ⟨q, hq, ?_⟩
    simp only [cell, hplace, Int.toNat_natCast]
  exact (Finset.card_le_card hsubset).trans Finset.card_image_le

end Raster.FrameBuffer

end DepthRaster
