import DepthRaster.Proofs.Render.Pixel
import DepthRaster.Proofs.Render.Statistics
/-!
# Models in another order

The order of the faces decides only which of several nearest faces gives its colour to a pixel. So
two models of the same coloured faces have the same depths and numbers, and the same colours but at
pixels where faces of different colours are nearest and no outline lies over them.
-/

namespace DepthRaster.Render

open Color (Rgb)
open DepthRaster.Geometry (ScreenVertex)
open Mesh (Corners)
open Raster (FrameBuffer Sample farDepth)

variable {ρ ε : Type}

def colored (faces : List (Corners ρ)) (colorOf : Nat → Rgb) : List (Corners ρ × Rgb) :=
  faces.zipIdx.map fun (corners, i) => (corners, colorOf i)

/-- Whether faces of different colours are the nearest at a pixel, both at its greatest depth. -/
def Canvas.Contested (canvas : Canvas) (faces : List (Corners ρ))
    (transform : ρ → Except ε ScreenVertex) (colorOf : Nat → Rgb) (x y : Nat) : Prop :=
  ∃ i j d, canvas.Covers faces transform x y i d ∧ canvas.Covers faces transform x y j d ∧
    (∀ k e, canvas.Covers faces transform x y k e → e ≤ d) ∧ colorOf i ≠ colorOf j

/-! ## Coloured faces -/

theorem map_fst_colored (faces : List (Corners ρ)) (colorOf : Nat → Rgb) :
    (colored faces colorOf).map Prod.fst = faces := by
  rw [colored, List.map_map]
  exact List.zipIdx_map_fst 0 faces

theorem mem_colored {faces : List (Corners ρ)} {colorOf : Nat → Rgb} {corners : Corners ρ}
    {c : Rgb} :
    (corners, c) ∈ colored faces colorOf ↔ ∃ i, faces[i]? = some corners ∧ colorOf i = c := by
  simp only [colored, List.mem_map, Prod.exists, List.mem_zipIdx_iff_getElem?, Prod.mk.injEq]
  constructor
  · rintro ⟨_, i, hget, rfl, rfl⟩
    exact ⟨i, hget, rfl⟩
  · rintro ⟨i, hget, rfl⟩
    exact ⟨corners, i, hget, rfl, rfl⟩

/-- Which colours cover a pixel at which depths is a matter of the coloured faces alone. -/
theorem Canvas.exists_covers_iff (canvas : Canvas) (faces : List (Corners ρ))
    (transform : ρ → Except ε ScreenVertex) (colorOf : Nat → Rgb) (x y : Nat) (d : UInt8)
    (c : Rgb) :
    (∃ i, canvas.Covers faces transform x y i d ∧ colorOf i = c) ↔
      ∃ corners, (corners, c) ∈ colored faces colorOf ∧
        ∃ t, placeCorners transform corners = .ok t ∧ t.isDrawn = true ∧ d ≠ farDepth ∧
          ∃ f ∈ t.fragments Float canvas.width canvas.height,
            f.x = x ∧ f.y = y ∧ f.depth = d := by
  constructor
  · rintro ⟨i, ⟨t, ⟨corners, hget, hplace⟩, hcovers⟩, hc⟩
    exact ⟨corners, mem_colored.mpr ⟨i, hget, hc⟩, t, hplace, hcovers⟩
  · rintro ⟨corners, hmem, t, hplace, hcovers⟩
    obtain ⟨i, hget, hc⟩ := mem_colored.mp hmem
    exact ⟨i, ⟨t, ⟨corners, hget, hplace⟩, hcovers⟩, hc⟩

/-! ## Samples of the same coloured fragments -/

section

variable {colorOf colorMoved : Nat → Rgb} {P Q : Nat → UInt8 → Prop} {s t : Sample}

theorem Leads.depth_eq (hs : Leads colorOf P s) (ht : Leads colorMoved Q t)
    (h : ∀ d c, (∃ i, P i d ∧ colorOf i = c) ↔ ∃ j, Q j d ∧ colorMoved j = c) :
    s.depth = t.depth := by
  apply UInt8.le_antisymm
  · apply hs.depth_le
    intro i d hP
    obtain ⟨j, hQ, -⟩ := (h d _).mp ⟨i, hP, rfl⟩
    exact ht.le_depth hQ
  · apply ht.depth_le
    intro j d hQ
    obtain ⟨i, hP, -⟩ := (h d _).mpr ⟨j, hQ, rfl⟩
    exact hs.le_depth hP

theorem Leads.color_eq (hs : Leads colorOf P s) (ht : Leads colorMoved Q t)
    (h : ∀ d c, (∃ i, P i d ∧ colorOf i = c) ↔ ∃ j, Q j d ∧ colorMoved j = c)
    (hagree : ∀ i j d, P i d → P j d → (∀ k e, P k e → e ≤ d) → colorOf i = colorOf j) :
    s.color = t.color := by
  cases hs with
  | nobody hnone =>
      cases ht with
      | nobody _ => rfl
      | first j d present _ _ _ =>
          obtain ⟨i, hP, -⟩ := (h d _).mpr ⟨j, present, rfl⟩
          exact absurd hP (hnone i d)
  | first i d present _ nearest _ =>
      obtain ⟨j, hQ, -⟩ := (h d _).mp ⟨i, present, rfl⟩
      cases ht with
      | nobody hnone => exact absurd hQ (hnone j d)
      | first k e present' _ nearest' _ =>
          obtain ⟨l, hP, hcolor⟩ := (h e _).mpr ⟨k, present', rfl⟩
          -- Both leaders are at the greatest depth, where the colours of the first model agree.
          obtain rfl : d = e := UInt8.le_antisymm (nearest' j d hQ) (nearest l e hP)
          rw [Sample.color_pack, Sample.color_pack, ← hcolor]
          exact hagree i l d present hP nearest

end

theorem Stats.Tally.agreesWith {s t : Stats} {canvas : Canvas}
    {transform : ρ → Except ε ScreenVertex} {faces moved : List (Corners ρ)}
    (hs : s.Tally canvas transform faces) (ht : t.Tally canvas transform moved)
    (hperm : faces.Perm moved) : s.AgreesWith t := by
  have htriangles : (triangles transform faces).Perm (triangles transform moved) :=
    hperm.filterMap _
  have hcauses : (causes transform faces).Perm (causes transform moved) := hperm.filterMap _
  constructor
  · rw [hs.total, ht.total, hperm.length_eq]
  · rw [hs.rejected, ht.rejected, hcauses.length_eq]
  · rw [hs.culled, ht.culled, htriangles.countP_eq]
  · rw [hs.rasterized, ht.rasterized, htriangles.countP_eq]
  · rw [hs.fragments, ht.fragments, ((htriangles.filter _).map _).sum_eq]

/-! ## Renderings -/

section

variable {transform : ρ → Except ε ScreenVertex} {faces moved : List (Corners ρ)}
  {colorOf colorMoved : Nat → Rgb}

theorem onOutline_perm (hperm : moved.Perm faces) (c : DepthRaster.Geometry.Cell) :
    OnOutline transform moved c ↔ OnOutline transform faces c := by
  have htriangles : (triangles transform moved).Perm (triangles transform faces) :=
    hperm.filterMap _
  unfold OnOutline
  simp only [htriangles.mem_iff]

theorem Canvas.overlay_perm (canvas : Canvas) (hperm : moved.Perm faces) (x y : Nat) (below : Rgb) :
    canvas.overlay transform moved x y below = canvas.overlay transform faces x y below := by
  unfold overlay
  cases canvas.wire with
  | none => rfl
  | some wire => exact if_congr (onOutline_perm hperm _) rfl rfl

theorem Canvas.overlay_of_onOutline {canvas : Canvas} {x y : Nat} (hwire : canvas.wire.isSome)
    (h : OnOutline transform faces ⟨x, y⟩) (c k : Rgb) :
    canvas.overlay transform faces x y c = canvas.overlay transform faces x y k := by
  obtain ⟨wire, hwire⟩ := Option.isSome_iff_exists.mp hwire
  simp only [overlay, hwire, if_pos h]

theorem Canvas.covers_perm (canvas : Canvas) (transform : ρ → Except ε ScreenVertex) (x y : Nat)
    (hperm : (colored moved colorMoved).Perm (colored faces colorOf)) (d : UInt8) (c : Rgb) :
    (∃ i, canvas.Covers moved transform x y i d ∧ colorMoved i = c) ↔
      ∃ i, canvas.Covers faces transform x y i d ∧ colorOf i = c := by
  simp only [exists_covers_iff, hperm.mem_iff]

theorem Canvas.depth_render_perm (canvas : Canvas) (hshared : canvas.shared = false)
    (hperm : (colored moved colorMoved).Perm (colored faces colorOf)) :
    (canvas.render moved transform colorMoved).depth =
      (canvas.render faces transform colorOf).depth := by
  have hsize := canvas.size_fill colorMoved (placeFaces transform moved).drawn
  have hsize' := canvas.size_fill colorOf (placeFaces transform faces).drawn
  apply FrameBuffer.depthImage_congr (hsize.1.trans hsize'.1.symm) (hsize.2.trans hsize'.2.symm)
  intro x hx y hy
  obtain ⟨s, hs, hleads⟩ := canvas.leads_covers hshared moved transform colorMoved
    (hsize.1 ▸ hx) (hsize.2 ▸ hy)
  obtain ⟨t, ht, hleads'⟩ := canvas.leads_covers hshared faces transform colorOf
    (hsize.1 ▸ hx) (hsize.2 ▸ hy)
  rw [FrameBuffer.depthAt, FrameBuffer.depthAt, hs, ht, Option.map_some, Option.map_some,
    hleads.depth_eq hleads' (canvas.covers_perm transform x y hperm)]

end

/-- Two models of the same coloured faces in any orders, drawn by one worker. -/
theorem render_perm (width height : Nat) (hwidth : width ≤ 2 ^ 31) (hheight : height ≤ 2 ^ 31)
    (wire : Option Rgb) (transform : ρ → Except ε ScreenVertex) {faces moved : List (Corners ρ)}
    {colorOf colorMoved : Nat → Rgb}
    (hperm : (colored moved colorMoved).Perm (colored faces colorOf)) :
    let canvas : Canvas := { width, height, shared := false, wire }
    let before := canvas.render faces transform colorOf
    let after := canvas.render moved transform colorMoved
    after.depth = before.depth ∧ after.stats.AgreesWith before.stats ∧
      ∀ x y : Nat, x < width → y < height →
        (wire.isSome ∧ OnOutline transform faces ⟨x, y⟩) ∨
            ¬ canvas.Contested faces transform colorOf x y →
          ∃ depth color, before.Shows x y depth color ∧ after.Shows x y depth color := by
  intro canvas before after
  have hfaces : moved.Perm faces := by
    rw [← map_fst_colored moved colorMoved, ← map_fst_colored faces colorOf]
    exact hperm.map Prod.fst
  refine ⟨canvas.depth_render_perm rfl hperm, (canvas.tally_render moved transform _).agreesWith
    (canvas.tally_render faces transform _) hfaces, ?_⟩
  intro x y hx hy hcase
  obtain ⟨s, hs, hbefore⟩ :=
    canvas.shows_render rfl hwidth hheight faces transform colorOf hx hy
  obtain ⟨t, ht, hafter⟩ :=
    canvas.shows_render rfl hwidth hheight moved transform colorMoved hx hy
  have hcovers := canvas.covers_perm transform x y hperm
  rw [ht.depth_eq hs hcovers, canvas.overlay_perm hfaces] at hafter
  refine ⟨_, _, hbefore, ?_⟩
  rcases hcase with ⟨hwire, houtline⟩ | hcalm
  · rwa [Canvas.overlay_of_onOutline hwire houtline s.color t.color]
  · have hcolor : s.color = t.color := by
      refine hs.color_eq ht (fun d c => (hcovers d c).symm) fun i j d hi hj hnearest => ?_
      by_contra hne
      exact hcalm ⟨i, j, d, hi, hj, hnearest, hne⟩
    rwa [hcolor]

/-- Two faces of different colours in the same place change their order; at a corner an outline lies
over them. -/
theorem render_perm_of_two :
    let face : Corners ScreenVertex := ⟨⟨0, 0, 7⟩, ⟨2, 0, 7⟩, ⟨0, 2, 7⟩⟩
    let canvas : Canvas := { width := 3, height := 3, shared := false, wire := some .black }
    let before := canvas.render [face, face] (Except.ok (ε := Empty)) fun i => ⟨i.toUInt8, 0, 0⟩
    let after := canvas.render [face, face] (Except.ok (ε := Empty)) fun i => ⟨1 - i.toUInt8, 0, 0⟩
    (3 ≤ 2 ^ 31 ∧ (colored [face, face] fun i => ⟨1 - i.toUInt8, 0, 0⟩).Perm
        (colored [face, face] fun i => ⟨i.toUInt8, 0, 0⟩)) ∧
      after.depth = before.depth ∧ after.stats.AgreesWith before.stats ∧
      ∃ depth color, before.Shows 0 0 depth color ∧ after.Shows 0 0 depth color := by
  intro face
  have hperm : (colored [face, face] fun i => ⟨1 - i.toUInt8, 0, 0⟩).Perm
      (colored [face, face] fun i => ⟨i.toUInt8, 0, 0⟩) :=
    .swap _ _ _
  have houtline : OnOutline (Except.ok (ε := Empty)) [face, face] ⟨0, 0⟩ := by decide +kernel
  obtain ⟨hdepth, hstats, hshows⟩ := render_perm 3 3 (by decide) (by decide) (some .black)
    (Except.ok (ε := Empty)) hperm
  exact ⟨⟨by decide, hperm⟩, hdepth, hstats,
    hshows 0 0 (by decide) (by decide) (.inl ⟨rfl, houtline⟩)⟩

end DepthRaster.Render
