import DepthRaster.Proofs.Render.Pixel
import DepthRaster.Proofs.Render.Statistics
/-!
# Smaller pictures are crops

A face covers a pixel or does not, whatever lies beyond the pixel. So a smaller picture of a model,
outlines included, is the corner of a larger one, and the faces are counted alike.
-/

namespace DepthRaster.Render

open Color (Rgb)
open DepthRaster.Geometry (ScreenVertex)
open Mesh (Corners)

variable {ρ ε : Type}

theorem Canvas.covers_congr (small large : Canvas)
    (hsmall : small.width < 2 ^ 63 ∧ small.height < 2 ^ 63)
    (hlarge : large.width < 2 ^ 63 ∧ large.height < 2 ^ 63) {x y : Nat}
    (hx : x < small.width ∧ x < large.width) (hy : y < small.height ∧ y < large.height)
    (faces : List (Corners ρ)) (transform : ρ → Except ε ScreenVertex) (i : Nat) (d : UInt8) :
    small.Covers faces transform x y i d ↔ large.Covers faces transform x y i d := by
  unfold Covers
  refine exists_congr fun t => and_congr_right fun _ => and_congr_right fun _ =>
    and_congr_right fun _ => exists_congr fun f => and_congr_left fun hf => ?_
  obtain ⟨rfl, rfl, -⟩ := hf
  rw [t.mem_fragments_iff hsmall.1 hsmall.2, t.mem_fragments_iff hlarge.1 hlarge.2]
  simp only [hx.1, hx.2, hy.1, hy.2, true_and]

/-- A picture of a model is the lower left corner of any larger picture of it. -/
theorem render_cropped {width wide height high : Nat} (hwidth : width ≤ wide)
    (hwide : wide ≤ 2 ^ 31) (hheight : height ≤ high) (hhigh : high ≤ 2 ^ 31) (wire : Option Rgb)
    (faces : List (Corners ρ)) (transform : ρ → Except ε ScreenVertex) (colorOf : Nat → Rgb) :
    let small : Canvas := { width, height, shared := false, wire }
    let large : Canvas := { width := wide, height := high, shared := false, wire }
    let crop := small.render faces transform colorOf
    let whole := large.render faces transform colorOf
    (∀ x y : Nat, x < width → y < height →
        ∃ depth color, crop.Shows x y depth color ∧ whole.Shows x y depth color) ∧
      crop.stats.rejected = whole.stats.rejected ∧ crop.stats.culled = whole.stats.culled ∧
        crop.stats.rasterized = whole.stats.rasterized := by
  intro small large crop whole
  have hcrop : crop.stats.Tally small transform faces :=
    small.tally_render faces transform colorOf
  have hwhole : whole.stats.Tally large transform faces :=
    large.tally_render faces transform colorOf
  refine ⟨?_, hcrop.rejected.trans hwhole.rejected.symm, hcrop.culled.trans hwhole.culled.symm,
    hcrop.rasterized.trans hwhole.rasterized.symm⟩
  have hsmall : width < 2 ^ 63 ∧ height < 2 ^ 63 := by omega
  have hlarge : wide < 2 ^ 63 ∧ high < 2 ^ 63 := by omega
  intro x y hx hy
  have hx' := Nat.lt_of_lt_of_le hx hwidth
  have hy' := Nat.lt_of_lt_of_le hy hheight
  obtain ⟨s, hs, hshows⟩ := small.shows_render rfl (hwidth.trans hwide) (hheight.trans hhigh)
    faces transform colorOf hx hy
  obtain ⟨t, ht, hshows'⟩ := large.shows_render rfl hwide hhigh faces transform colorOf hx' hy'
  have hcovers := small.covers_congr large hsmall hlarge ⟨hx, hx'⟩ ⟨hy, hy'⟩ faces transform
  obtain rfl : s = t := (hs.congr hcovers).unique ht
  exact ⟨_, _, hshows, hshows'⟩

/-- A face that reaches beyond both pictures. Its outline goes through the larger one only. -/
theorem render_cropped_of_overhang :
    let faces : List (Corners ScreenVertex) := [⟨⟨-1, -1, 7⟩, ⟨2, -1, 7⟩, ⟨-1, 2, 7⟩⟩]
    let small : Canvas := { width := 1, height := 1, shared := false, wire := some .white }
    let large : Canvas := { width := 2, height := 1, shared := false, wire := some .white }
    let crop := small.render faces (Except.ok (ε := Empty)) fun _ => ⟨1, 2, 3⟩
    let whole := large.render faces (Except.ok (ε := Empty)) fun _ => ⟨1, 2, 3⟩
    ((1 ≤ 2 ∧ 2 ≤ 2 ^ 31) ∧ 1 ≤ 1 ∧ 1 ≤ 2 ^ 31) ∧ crop.Shows 0 0 7 ⟨1, 2, 3⟩ ∧
      whole.Shows 0 0 7 ⟨1, 2, 3⟩ := by
  intro faces small large crop whole
  have hshown : crop.Shows 0 0 7 ⟨1, 2, 3⟩ := ⟨by decide +kernel, by decide +kernel⟩
  have hwidth : 1 ≤ 2 := by decide
  have hheight : 1 ≤ 1 := by decide
  obtain ⟨hpixels, -⟩ := render_cropped hwidth (by decide) hheight (by decide)
    (some .white) faces (Except.ok (ε := Empty)) fun _ => ⟨1, 2, 3⟩
  obtain ⟨d, c, hcrop, hwhole⟩ := hpixels 0 0 (by decide) (by decide)
  obtain ⟨rfl, rfl⟩ := hshown.unique hcrop
  exact ⟨by decide, hshown, hwhole⟩

end DepthRaster.Render
