import DepthRaster.Proofs.Render.Pixel
/-!
# Outlines over the picture

Outlines are drawn over a picture that is otherwise complete. They give their colour to the pixels
that they go through and change nothing else, in any order of faces and edges and from either end of
an edge.
-/

namespace DepthRaster.Render

open Color (Rgb)
open DepthRaster.Geometry (Cell ScreenVertex)
open Mesh (Corners)

variable {ρ ε : Type}

def LitByOutline (transform : ρ → Except ε ScreenVertex) (faces : List (Corners ρ)) (image : Image)
    (x y : Int) : Prop :=
  ∃ t ∈ triangles transform faces, ∃ e ∈ edges t, image.Lights e.1 e.2 x y

def placedEdges (transform : ρ → Except ε ScreenVertex) (faces : List (Corners ρ)) :
    List (Sym2 Cell) :=
  ((triangles transform faces).flatMap edges).map fun e => s(e.1, e.2)

theorem litByOutline_iff {image : Image} (hrgb : image.format = .rgb)
    (transform : ρ → Except ε ScreenVertex) (faces : List (Corners ρ)) {x y : Int} :
    LitByOutline transform faces image x y ↔
      image.Has x y ∧ OnOutline transform faces ⟨x, y⟩ := by
  simp only [LitByOutline, OnOutline, Image.lights_iff hrgb]
  constructor
  · rintro ⟨t, ht, e, he, hin, hcell⟩
    exact ⟨hin, t, ht, e, he, hcell⟩
  · rintro ⟨hin, t, ht, e, he, hcell⟩
    exact ⟨t, ht, e, he, hin, hcell⟩

theorem drawOutlines_eq (image : Image) (transform : ρ → Except ε ScreenVertex)
    (faces : List (Corners ρ)) (wire : Rgb) :
    drawOutlines image (placeFaces transform faces).placed wire =
      ((triangles transform faces).flatMap edges).foldl
        (fun image (a, b) => image.drawSegment a b wire) image := by
  rw [drawOutlines, ← map_triangle_placed, List.flatMap_map]

theorem Canvas.format_color_render (canvas : Canvas) (hwire : canvas.wire = none)
    (faces : List (Corners ρ)) (transform : ρ → Except ε ScreenVertex) (colorOf : Nat → Rgb) :
    (canvas.render faces transform colorOf).color.format = .rgb := by
  simp only [render, develop, hwire]
  exact (Raster.FrameBuffer.format_toImages _).1

/-- A picture with outlines is the picture without them, where the outlines are drawn over the
colours: depths and numbers are the same, lit pixels have the colour of the outlines, and all others
keep theirs. Any order of the edges of all placed faces, each in either direction, gives the same
picture. -/
theorem render_outlined (width height : Nat) (wire : Rgb) (faces : List (Corners ρ))
    (transform : ρ → Except ε ScreenVertex) (colorOf : Nat → Rgb) :
    let bare : Canvas := { width, height, shared := false, wire := none }
    let wired : Canvas := { width, height, shared := false, wire := some wire }
    let plain := bare.render faces transform colorOf
    let outlined := wired.render faces transform colorOf
    (outlined.depth = plain.depth ∧ outlined.stats = plain.stats ∧
        outlined.rejections = plain.rejections) ∧
      (∀ x y, LitByOutline transform faces plain.color x y →
        outlined.color.getPixel x y = some wire.toList) ∧
      (∀ x y, ¬ LitByOutline transform faces plain.color x y →
        outlined.color.getPixel x y = plain.color.getPixel x y) ∧
      ∀ segments : List (Cell × Cell),
        (segments.map fun e => s(e.1, e.2)).Perm (placedEdges transform faces) →
          segments.foldl (fun image (a, b) => image.drawSegment a b wire) plain.color =
            outlined.color := by
  intro bare wired plain outlined
  have hrgb : plain.color.format = .rgb := bare.format_color_render rfl faces transform colorOf
  have hcolor : outlined.color =
      drawOutlines plain.color (placeFaces transform faces).placed wire := rfl
  obtain ⟨hwidth, hheight, -⟩ : outlined.color.width = plain.color.width ∧
      outlined.color.height = plain.color.height ∧ outlined.color.format = plain.color.format := by
    rw [hcolor, drawOutlines_eq]
    exact plain.color.shape_foldl_drawSegment _ wire
  refine ⟨⟨rfl, rfl, rfl⟩, fun x y hlit => ?_, fun x y hdark => ?_, fun segments hperm => ?_⟩
  · obtain ⟨hin, houtline⟩ := (litByOutline_iff hrgb transform faces).mp hlit
    rw [hcolor, getPixel_drawOutlines hrgb hin, if_pos houtline]
  · by_cases hin : plain.color.Has x y
    · have houtline : ¬ OnOutline transform faces ⟨x, y⟩ := fun h =>
        hdark ((litByOutline_iff hrgb transform faces).mpr ⟨hin, h⟩)
      rw [hcolor, getPixel_drawOutlines hrgb hin, if_neg houtline]
    · have hout : ¬ outlined.color.Has x y := by rwa [Image.Has, hwidth, hheight]
      rw [Image.getPixel_eq_none hin, Image.getPixel_eq_none hout]
  · rw [hcolor, drawOutlines_eq]
    exact Image.foldl_drawSegment_congr hrgb (fun e => hperm.mem_iff) wire

/-- A face seen from behind, whose edges are also drawn from the last one to the first and each from
its other end. -/
theorem render_outlined_of_back_face :
    let faces : List (Corners ScreenVertex) := [⟨⟨0, 0, 7⟩, ⟨0, 2, 7⟩, ⟨2, 0, 7⟩⟩]
    let backward : List (Cell × Cell) := [(⟨0, 0⟩, ⟨2, 0⟩), (⟨2, 0⟩, ⟨0, 2⟩), (⟨0, 2⟩, ⟨0, 0⟩)]
    let bare : Canvas := { width := 3, height := 3, shared := false, wire := none }
    let wired : Canvas := { width := 3, height := 3, shared := false, wire := some .white }
    let plain := bare.render faces (Except.ok (ε := Empty)) fun _ => .black
    let outlined := wired.render faces (Except.ok (ε := Empty)) fun _ => .black
    (backward.map fun e => s(e.1, e.2)).Perm (placedEdges (Except.ok (ε := Empty)) faces) ∧
      outlined.stats = plain.stats ∧
      outlined.color.getPixel 1 1 = some Rgb.white.toList ∧
      backward.foldl (fun image (a, b) => image.drawSegment a b .white) plain.color =
        outlined.color := by
  intro faces backward bare wired plain outlined
  have hperm : (backward.map fun e => s(e.1, e.2)).Perm
      (placedEdges (Except.ok (ε := Empty)) faces) := by decide
  have houtline : OnOutline (Except.ok (ε := Empty)) faces ⟨1, 1⟩ := by decide +kernel
  have hlit : LitByOutline (Except.ok (ε := Empty)) faces plain.color 1 1 :=
    (litByOutline_iff (bare.format_color_render rfl faces _ _) _ faces).mpr
      ⟨⟨by decide, by decide, by decide +kernel, by decide +kernel⟩, houtline⟩
  obtain ⟨⟨-, hstats, -⟩, hlights, -, horder⟩ :=
    render_outlined 3 3 .white faces (Except.ok (ε := Empty)) fun _ => .black
  exact ⟨hperm, hstats, hlights 1 1 hlit, horder backward hperm⟩

end DepthRaster.Render
