import DepthRaster.Proofs.Raster.Export
import DepthRaster.Proofs.Render.Placement
import Mathlib.Data.List.Induction
/-!
# The nearest face shows

Faces are drawn one after the other. After any number of them the sample of a pixel is the one that
the nearest fragment there left, that of the first face among fragments as near; the images say what
the samples say.
-/

namespace DepthRaster.Render

open Color (Rgb)
open DepthRaster.Geometry (ScreenVertex)
open Mesh (Corners)
open Raster (FrameBuffer Sample Write farDepth)

/-! ## One pixel -/

def writeOf (colorOf : Nat → Rgb) (x y : Nat) (c : Nat × UInt8) : Write :=
  { x, y, depth := c.2, order := orderOf c.1, color := colorOf c.1 }

/-- A sample is led by the nearest of the fragments that satisfy `P`, each given by the number of
its face and its depth, and among those as near by the one of the first face. -/
inductive Leads (colorOf : Nat → Rgb) (P : Nat → UInt8 → Prop) : Sample → Prop where
  | nobody (none : ∀ i d, ¬ P i d) : Leads colorOf P .empty
  | first (i : Nat) (d : UInt8) (present : P i d) (near : d ≠ farDepth)
      (nearest : ∀ j e, P j e → e ≤ d) (least : ∀ j, P j d → i ≤ j) :
      Leads colorOf P (.pack d (orderOf i) (colorOf i))

theorem Leads.congr {colorOf : Nat → Rgb} {P Q : Nat → UInt8 → Prop} {s : Sample}
    (h : Leads colorOf P s) (hPQ : ∀ i d, P i d ↔ Q i d) : Leads colorOf Q s := by
  obtain rfl : P = Q := funext fun i => funext fun d => propext (hPQ i d)
  exact h

/-- Fragments leave no choice which sample they lead to. -/
theorem Leads.unique {colorOf : Nat → Rgb} {P : Nat → UInt8 → Prop} {s t : Sample}
    (hs : Leads colorOf P s) (ht : Leads colorOf P t) : s = t := by
  cases hs with
  | nobody hnone =>
      cases ht with
      | nobody _ => rfl
      | first j e present _ _ _ => exact absurd present (hnone j e)
  | first i d present _ nearest least =>
      cases ht with
      | nobody hnone => exact absurd present (hnone i d)
      | first j e present' _ nearest' least' =>
          obtain rfl : d = e := UInt8.le_antisymm (nearest' i d present) (nearest j e present')
          obtain rfl : i = j := Nat.le_antisymm (least j present') (least' i present)
          rfl

theorem Leads.le_depth {colorOf : Nat → Rgb} {P : Nat → UInt8 → Prop} {s : Sample}
    (h : Leads colorOf P s) {i : Nat} {d : UInt8} (hd : P i d) : d ≤ s.depth := by
  cases h with
  | nobody hnone => exact absurd hd (hnone i d)
  | first j e _ _ nearest _ =>
      rw [Sample.depth_pack]
      exact nearest i d hd

theorem Leads.depth_le {colorOf : Nat → Rgb} {P : Nat → UInt8 → Prop} {s : Sample}
    (h : Leads colorOf P s) {d : UInt8} (hd : ∀ i e, P i e → e ≤ d) : s.depth ≤ d := by
  cases h with
  | nobody _ => exact UInt8.le_iff_toNat_le.mpr (Nat.zero_le _)
  | first i e present _ _ _ =>
      rw [Sample.depth_pack]
      exact hd i e present

theorem Leads.depth_lt {colorOf : Nat → Rgb} {P : Nat → UInt8 → Prop} {s : Sample}
    (h : Leads colorOf P s) {d : UInt8} (near : d ≠ farDepth) (hd : ∀ i e, P i e → e < d) :
    s.depth < d := by
  cases h with
  | nobody _ =>
      rw [Sample.depth_empty, UInt8.lt_iff_toNat_lt]
      exact Nat.pos_of_ne_zero fun hzero => near (UInt8.toNat_inj.mp hzero)
  | first i e present _ _ _ =>
      rw [Sample.depth_pack]
      exact hd i e present

/-- A fragment of a face that comes last ranks above what leads before it when it is nearer than all
fragments before it. -/
theorem Leads.rank_lt_iff {colorOf : Nat → Rgb} {P : Nat → UInt8 → Prop} {s : Sample}
    (h : Leads colorOf P s) {k : Nat} {d : UInt8} (near : d ≠ farDepth) (color : Rgb)
    (hlast : ∀ j e, P j e → j ≤ k) :
    s.rank < (Sample.pack d (orderOf k) color).rank ↔ ∀ j e, P j e → e < d := by
  cases h with
  | nobody hnone =>
      exact iff_of_true (Sample.rank_empty_lt _ _ near) fun j e hP => absurd hP (hnone j e)
  | first i e present _ nearest _ =>
      rw [Sample.rank_pack_lt_iff]
      constructor
      · rintro (hlt | ⟨-, horder⟩)
        · exact fun j e' hP => UInt8.lt_of_le_of_lt (nearest j e' hP) hlt
        · exact absurd (orderOf_le_orderOf (hlast i e present)) (UInt32.not_le.mpr horder)
      · exact fun hall => .inl (hall i e present)

/-- One more fragment, of a face that does not come before any that was drawn. -/
theorem Leads.after {colorOf : Nat → Rgb} {P : Nat → UInt8 → Prop} {s : Sample}
    (h : Leads colorOf P s) (x y k : Nat) (e : UInt8) (hlast : ∀ j d, P j d → j ≤ k) :
    Leads colorOf (fun j d => P j d ∨ (j = k ∧ d = e) ∧ e ≠ farDepth)
      (s.after (writeOf colorOf x y (k, e))) := by
  by_cases hfar : e = farDepth
  · rw [Sample.after, if_neg (by simp [writeOf, hfar])]
    exact h.congr (by simp [hfar])
  have hafter : s.after (writeOf colorOf x y (k, e)) =
      if s.rank < (Sample.pack e (orderOf k) (colorOf k)).rank
        then .pack e (orderOf k) (colorOf k) else s := by
    simp [Sample.after, writeOf, Write.sample, hfar]
  rw [hafter]
  have hiff := h.rank_lt_iff hfar (colorOf k) hlast
  split_ifs with hwins
  · have hnearest := hiff.mp hwins
    refine .first k e (Or.inr ⟨⟨rfl, rfl⟩, hfar⟩) hfar ?_ ?_
    · rintro j d (hP | ⟨⟨-, rfl⟩, -⟩)
      · exact UInt8.le_of_lt (hnearest j d hP)
      · exact UInt8.le_refl _
    · rintro j (hP | ⟨⟨rfl, -⟩, -⟩)
      · exact absurd (hnearest j e hP) (UInt8.lt_irrefl _)
      · exact le_refl _
  · cases h with
    | nobody hnone => exact absurd (hiff.mpr fun j d hP => absurd hP (hnone j d)) hwins
    | first i d present near nearest least =>
        rw [Sample.rank_pack_lt_iff] at hwins
        refine .first i d (Or.inl present) near ?_ ?_
        · rintro j d' (hP | ⟨⟨-, rfl⟩, -⟩)
          · exact nearest j d' hP
          · exact UInt8.not_lt.mp fun hlt => hwins (Or.inl hlt)
        · rintro j (hP | ⟨⟨rfl, -⟩, -⟩)
          · exact least j hP
          · exact hlast i d present

/-- The fragments of faces that come in order. -/
theorem leads_foldl_after (colorOf : Nat → Rgb) (x y : Nat) (fragments : List (Nat × UInt8))
    (hsorted : fragments.Pairwise fun a b => a.1 ≤ b.1) :
    Leads colorOf (fun i d => (i, d) ∈ fragments ∧ d ≠ farDepth)
      ((fragments.map (writeOf colorOf x y)).foldl Sample.after .empty) := by
  -- The invariant is that of all fragments so far, so the induction takes the last one off.
  induction fragments using List.reverseRecOn with
  | nil => exact .nobody (by simp)
  | append_singleton fragments c ih =>
      obtain ⟨k, e⟩ := c
      obtain ⟨hsorted, -, hlast⟩ := List.pairwise_append.mp hsorted
      rw [List.map_append, List.foldl_append]
      have hstep := (ih hsorted).after x y k e fun j d hP => hlast (j, d) hP.1 (k, e) (by simp)
      refine hstep.congr fun i d => ?_
      simp only [List.mem_append, List.mem_singleton, Prod.mk.injEq]
      constructor
      · rintro (⟨hmem, hd⟩ | ⟨⟨rfl, rfl⟩, hd⟩)
        · exact ⟨Or.inl hmem, hd⟩
        · exact ⟨Or.inr ⟨rfl, rfl⟩, hd⟩
      · rintro ⟨hmem | ⟨rfl, rfl⟩, hd⟩
        · exact Or.inl ⟨hmem, hd⟩
        · exact Or.inr ⟨⟨rfl, rfl⟩, hd⟩

/-! ## All pixels -/

variable {ρ ε : Type}

/-- Whether the face of the given number is drawn and has a fragment of the given depth, above the
far one, at a pixel. -/
def Canvas.Covers (canvas : Canvas) (faces : List (Corners ρ))
    (transform : ρ → Except ε ScreenVertex) (x y index : Nat) (depth : UInt8) : Prop :=
  ∃ t, PlacedAt transform faces index t ∧ t.isDrawn = true ∧ depth ≠ farDepth ∧
    ∃ f ∈ t.fragments Float canvas.width canvas.height, f.x = x ∧ f.y = y ∧ f.depth = depth

namespace Canvas

theorem fst_fill (canvas : Canvas) (colorOf : Nat → Rgb) (faces : List PlacedFace) :
    (canvas.fill colorOf faces).1 =
      (FrameBuffer.empty canvas.width canvas.height).writeAll
        (faces.flatMap (canvas.writes colorOf)) := by
  rw [fill, ← List.foldl_flatMap, FrameBuffer.fst_foldl_compositeCounted]

def fragmentsAt (canvas : Canvas) (x y : Nat) (face : PlacedFace) : List (Nat × UInt8) :=
  ((face.triangle.fragments Float canvas.width canvas.height).filter fun f =>
    decide (f.x = x) && decide (f.y = y)).map fun f => (face.index, f.depth)

theorem filter_writes (canvas : Canvas) (hshared : canvas.shared = false) (colorOf : Nat → Rgb)
    (x y : Nat) (face : PlacedFace) :
    (canvas.writes colorOf face).filter (·.isAt x y) =
      (canvas.fragmentsAt x y face).map (writeOf colorOf x y) := by
  simp only [writes, Raster.Triangle.writes, hshared, Bool.false_and, Bool.false_eq_true, if_false,
    fragmentsAt, List.filter_map, List.map_map]
  apply List.map_congr_left
  intro f hf
  obtain ⟨-, rfl, rfl⟩ : f ∈ _ ∧ f.x = x ∧ f.y = y := by
    simpa [Function.comp_def, Raster.Fragment.write, Write.isAt] using hf
  rfl

/-- After any faces in order a pixel's sample is led by the fragments of those faces. -/
theorem leads_fill (canvas : Canvas) (hshared : canvas.shared = false) (colorOf : Nat → Rgb)
    (faces : List PlacedFace) (hsorted : faces.Pairwise fun f g => f.index < g.index)
    {x y : Nat} (hx : x < canvas.width) (hy : y < canvas.height) :
    ∃ s, (canvas.fill colorOf faces).1.sampleAt x y = some s ∧
      Leads colorOf (fun i d => (i, d) ∈ faces.flatMap (canvas.fragmentsAt x y) ∧ d ≠ farDepth)
        s := by
  refine ⟨_, ?_, leads_foldl_after colorOf x y (faces.flatMap (canvas.fragmentsAt x y)) ?_⟩
  · rw [fst_fill, FrameBuffer.sampleAt_writeAll, FrameBuffer.sampleAt_empty hx hy,
      List.filter_flatMap, List.map_flatMap]
    simp only [filter_writes canvas hshared]
    rfl
  · rw [List.pairwise_flatMap]
    constructor
    · intro face _
      rw [fragmentsAt, List.pairwise_map]
      exact List.pairwise_of_forall fun _ _ => le_refl _
    · apply hsorted.imp
      intro f g hlt a ha b hb
      obtain ⟨-, -, rfl⟩ := List.mem_map.mp ha
      obtain ⟨-, -, rfl⟩ := List.mem_map.mp hb
      exact Nat.le_of_lt hlt

theorem mem_fragmentsAt (canvas : Canvas) {x y i : Nat} {d : UInt8} {face : PlacedFace} :
    (i, d) ∈ canvas.fragmentsAt x y face ↔ face.index = i ∧
      ∃ f ∈ face.triangle.fragments Float canvas.width canvas.height,
        f.x = x ∧ f.y = y ∧ f.depth = d := by
  simp only [fragmentsAt, List.mem_map, List.mem_filter, Bool.and_eq_true, decide_eq_true_eq,
    Prod.mk.injEq]
  constructor
  · rintro ⟨f, ⟨hf, hx, hy⟩, hi, hd⟩
    exact ⟨hi, f, hf, hx, hy, hd⟩
  · rintro ⟨hi, f, hf, hx, hy, hd⟩
    exact ⟨f, ⟨hf, hx, hy⟩, hi, hd⟩

theorem covers_iff (canvas : Canvas) (faces : List (Corners ρ))
    (transform : ρ → Except ε ScreenVertex) (x y i : Nat) (d : UInt8) :
    (i, d) ∈ (placeFaces transform faces).drawn.flatMap (canvas.fragmentsAt x y) ∧ d ≠ farDepth ↔
      canvas.Covers faces transform x y i d := by
  rw [List.mem_flatMap]
  constructor
  · rintro ⟨⟨⟨index, t⟩, hface, hmem⟩, hd⟩
    obtain ⟨hplaced, hdrawn⟩ := (mem_drawn transform faces).mp hface
    obtain ⟨rfl, hf⟩ := (mem_fragmentsAt canvas).mp hmem
    exact ⟨t, hplaced, hdrawn, hd, hf⟩
  · rintro ⟨t, hplaced, hdrawn, hd, hf⟩
    exact ⟨⟨⟨i, t⟩, (mem_drawn transform faces).mpr ⟨hplaced, hdrawn⟩,
      (mem_fragmentsAt canvas).mpr ⟨rfl, hf⟩⟩, hd⟩

theorem leads_covers (canvas : Canvas) (hshared : canvas.shared = false)
    (faces : List (Corners ρ)) (transform : ρ → Except ε ScreenVertex) (colorOf : Nat → Rgb)
    {x y : Nat} (hx : x < canvas.width) (hy : y < canvas.height) :
    ∃ s, (canvas.fill colorOf (placeFaces transform faces).drawn).1.sampleAt x y = some s ∧
      Leads colorOf (canvas.Covers faces transform x y) s := by
  obtain ⟨s, hs, hleads⟩ := leads_fill canvas hshared colorOf
    (placeFaces transform faces).drawn (pairwise_drawn transform faces) hx hy
  exact ⟨s, hs, hleads.congr (covers_iff canvas faces transform x y)⟩

@[simp] theorem size_fill (canvas : Canvas) (colorOf : Nat → Rgb) (faces : List PlacedFace) :
    (canvas.fill colorOf faces).1.width = canvas.width ∧
      (canvas.fill colorOf faces).1.height = canvas.height := by
  rw [fst_fill, FrameBuffer.width_writeAll, FrameBuffer.height_writeAll]
  exact ⟨rfl, rfl⟩

end Canvas

/-- One worker draws a model without outlines. A pixel that no face covers is black and at the far
depth. Any other has the greatest depth of those that cover it, and the colour of the first face of
that depth. -/
theorem render_shows_nearest (width height : Nat) (hwidth : width ≤ 2 ^ 31)
    (hheight : height ≤ 2 ^ 31) (faces : List (Corners ρ))
    (transform : ρ → Except ε ScreenVertex) (colorOf : Nat → Rgb) :
    let canvas : Canvas := { width, height, shared := false, wire := none }
    let rendering := canvas.render faces transform colorOf
    ((rendering.color.width = width ∧ rendering.color.height = height) ∧
        rendering.depth.width = width ∧ rendering.depth.height = height) ∧
      ∀ x y : Nat, x < width → y < height →
        ((∀ i d, ¬ canvas.Covers faces transform x y i d) →
          rendering.depth.getPixel x y = some [0] ∧
            rendering.color.getPixel x y = some [0, 0, 0]) ∧
        ((∃ i d, canvas.Covers faces transform x y i d) →
          ∃ i d, canvas.Covers faces transform x y i d ∧
            (∀ j e, canvas.Covers faces transform x y j e → e ≤ d) ∧
            (∀ j, canvas.Covers faces transform x y j d → i ≤ j) ∧
            rendering.depth.getPixel x y = some [d] ∧
            rendering.color.getPixel x y = some (colorOf i).toList) := by
  intro canvas rendering
  let buffer := (canvas.fill colorOf (placeFaces transform faces).drawn).1
  obtain ⟨hbw, hbh⟩ : buffer.width = width ∧ buffer.height = height :=
    Canvas.size_fill canvas colorOf _
  have hcolor : rendering.color = buffer.toImages.1 := rfl
  have hdepth : rendering.depth = buffer.toImages.2 := rfl
  rw [hcolor, hdepth]
  constructor
  · rw [← hbw, ← hbh]
    exact buffer.shape_toImages
  · intro x y hx hy
    obtain ⟨s, hs, hleads⟩ :=
      canvas.leads_covers rfl faces transform colorOf (x := x) (y := y) hx hy
    obtain ⟨hc, hd⟩ := FrameBuffer.getPixel_toImages (by rwa [hbw]) (by rwa [hbh])
      (by rwa [hbw]) (by rwa [hbh]) hs
    rw [hc, hd]
    cases hleads with
    | nobody hnone =>
        refine ⟨fun _ => ⟨rfl, rfl⟩, ?_⟩
        rintro ⟨i, d, hcovers⟩
        exact absurd hcovers (hnone i d)
    | first i d present _ nearest least =>
        refine ⟨fun hnone => absurd present (hnone i d), fun _ => ?_⟩
        exact ⟨i, d, present, nearest, least, by rw [Sample.depth_pack], by rw [Sample.color_pack]⟩

/-- Two faces in the same place, as near: the pixel at the corner is covered and has a winner. -/
theorem render_shows_nearest_of_two :
    let faces : List (Corners ScreenVertex) := List.replicate 2 ⟨⟨0, 0, 7⟩, ⟨2, 0, 7⟩, ⟨0, 2, 7⟩⟩
    let canvas : Canvas := { width := 3, height := 3, shared := false, wire := none }
    (3 ≤ 2 ^ 31 ∧ ∃ i d, canvas.Covers faces (Except.ok (ε := Empty)) 0 0 i d) ∧
      ∃ i d, canvas.Covers faces (Except.ok (ε := Empty)) 0 0 i d ∧
        (∀ j e, canvas.Covers faces (Except.ok (ε := Empty)) 0 0 j e → e ≤ d) ∧
        (∀ j, canvas.Covers faces (Except.ok (ε := Empty)) 0 0 j d → i ≤ j) ∧
        (canvas.render faces (Except.ok (ε := Empty)) fun i => ⟨i.toUInt8, 0, 0⟩).depth.getPixel
          (0 : Nat) (0 : Nat) = some [d] ∧
        (canvas.render faces (Except.ok (ε := Empty)) fun i => ⟨i.toUInt8, 0, 0⟩).color.getPixel
          (0 : Nat) (0 : Nat) = some (⟨i.toUInt8, 0, 0⟩ : Rgb).toList := by
  intro faces canvas
  have hfragments : ((⟨⟨0, 0, 7⟩, ⟨2, 0, 7⟩, ⟨0, 2, 7⟩⟩ : Raster.Triangle).fragments Float 3 3).any
      (fun f => f.x = 0 && f.y = 0 && f.depth = 7) = true := by decide +kernel
  obtain ⟨f, hf, hxy⟩ := List.any_eq_true.mp hfragments
  have hcovers : canvas.Covers faces (Except.ok (ε := Empty)) 0 0 1 7 :=
    ⟨⟨⟨0, 0, 7⟩, ⟨2, 0, 7⟩, ⟨0, 2, 7⟩⟩, ⟨_, rfl, rfl⟩, by decide +kernel, by decide, f, hf,
      by simpa [and_assoc] using hxy⟩
  have hpixel := (render_shows_nearest 3 3 (by decide) (by decide) faces
    (Except.ok (ε := Empty)) fun i => ⟨i.toUInt8, 0, 0⟩).2 0 0 (by decide) (by decide)
  exact ⟨⟨by decide, 1, 7, hcovers⟩, hpixel.2 ⟨1, 7, hcovers⟩⟩

end DepthRaster.Render
