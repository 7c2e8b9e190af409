import DepthRaster.Proofs.Raster.Segment
import DepthRaster.Proofs.Render.Nearest
/-!
# What a rendering shows

A pixel of a rendering shows the depth of its sample, and the colour of its sample unless an outline
goes through it.
-/

namespace DepthRaster.Render

open Color (Rgb)
open DepthRaster.Geometry (Cell ScreenVertex)
open Mesh (Corners)
open Raster (FrameBuffer Segment)

variable {ρ ε : Type}

def Rendering.Shows (r : Rendering ε) (x y : Nat) (depth : UInt8) (color : Rgb) : Prop :=
  r.depth.getPixel x y = some [depth] ∧ r.color.getPixel x y = some color.toList

theorem Rendering.Shows.unique {r : Rendering ε} {x y : Nat} {d e : UInt8} {c k : Rgb}
    (h : r.Shows x y d c) (h' : r.Shows x y e k) : d = e ∧ c = k := by
  have hdepth := Option.some.inj (h.1.symm.trans h'.1)
  have hcolor := Option.some.inj (h.2.symm.trans h'.2)
  simp only [Rgb.toList, List.cons.injEq] at hcolor
  obtain ⟨red, green, blue⟩ := c
  obtain ⟨rfl, rfl, rfl, -⟩ := hcolor
  exact ⟨List.head_eq_of_cons_eq hdepth, rfl⟩

/-- Whether the outline of a face goes through a cell. All faces with a place on the screen have
outlines, also those that are not drawn. -/
def OnOutline (transform : ρ → Except ε ScreenVertex) (faces : List (Corners ρ)) (c : Cell) :
    Prop :=
  ∃ t ∈ triangles transform faces, ∃ e ∈ edges t, c ∈ (Segment.between e.1 e.2).cells Float

instance (transform : ρ → Except ε ScreenVertex) (faces : List (Corners ρ)) (c : Cell) :
    Decidable (OnOutline transform faces c) :=
  inferInstanceAs (Decidable (∃ t ∈ triangles transform faces, ∃ e ∈ edges t,
    c ∈ (Segment.between e.1 e.2).cells Float))

def Canvas.overlay (canvas : Canvas) (transform : ρ → Except ε ScreenVertex)
    (faces : List (Corners ρ)) (x y : Nat) (below : Rgb) : Rgb :=
  match canvas.wire with
  | some wire => if OnOutline transform faces ⟨x, y⟩ then wire else below
  | none => below

theorem getPixel_drawOutlines {image : Image} (hrgb : image.format = .rgb) {x y : Int}
    (hin : image.Has x y) (transform : ρ → Except ε ScreenVertex) (faces : List (Corners ρ))
    (wire : Rgb) :
    (drawOutlines image (placeFaces transform faces).placed wire).getPixel x y =
      if OnOutline transform faces ⟨x, y⟩ then some wire.toList else image.getPixel x y := by
  rw [drawOutlines, Image.getPixel_foldl_drawSegment hrgb hin]
  apply if_congr _ rfl rfl
  rw [OnOutline, ← map_triangle_placed]
  simp only [List.mem_flatMap, List.mem_map]
  constructor
  · rintro ⟨e, ⟨face, hface, he⟩, hcell⟩
    exact ⟨_, ⟨face, hface, rfl⟩, e, he, hcell⟩
  · rintro ⟨-, ⟨face, hface, rfl⟩, e, he, hcell⟩
    exact ⟨e, ⟨face, hface, he⟩, hcell⟩

/-- A pixel of one worker's rendering shows the sample of the nearest of the first faces there,
under the outline that may go through it. -/
theorem Canvas.shows_render (canvas : Canvas) (hshared : canvas.shared = false)
    (hwidth : canvas.width ≤ 2 ^ 31) (hheight : canvas.height ≤ 2 ^ 31)
    (faces : List (Corners ρ)) (transform : ρ → Except ε ScreenVertex) (colorOf : Nat → Rgb)
    {x y : Nat} (hx : x < canvas.width) (hy : y < canvas.height) :
    ∃ s, Leads colorOf (canvas.Covers faces transform x y) s ∧
      (canvas.render faces transform colorOf).Shows x y s.depth
        (canvas.overlay transform faces x y s.color) := by
  obtain ⟨s, hs, hleads⟩ := canvas.leads_covers hshared faces transform colorOf hx hy
  refine ⟨s, hleads, ?_⟩
  let buffer := (canvas.fill colorOf (placeFaces transform faces).drawn).1
  obtain ⟨hbw, hbh⟩ : buffer.width = canvas.width ∧ buffer.height = canvas.height :=
    Canvas.size_fill canvas colorOf _
  obtain ⟨hcolor, hdepth⟩ := FrameBuffer.getPixel_toImages (by rwa [hbw]) (by rwa [hbh])
    (by rwa [hbw]) (by rwa [hbh]) hs
  refine ⟨hdepth, ?_⟩
  simp only [render, develop, overlay]
  cases canvas.wire with
  | none => exact hcolor
  | some wire =>
      have hin : buffer.toImages.1.Has x y := by
        obtain ⟨⟨hw, hh⟩, -⟩ := buffer.shape_toImages
        exact Image.has_of_lt (by rwa [hw, hbw]) (by rwa [hh, hbh])
      refine (getPixel_drawOutlines buffer.format_toImages.1 hin transform faces wire).trans ?_
      rw [hcolor]
      split_ifs <;> rfl

end DepthRaster.Render
