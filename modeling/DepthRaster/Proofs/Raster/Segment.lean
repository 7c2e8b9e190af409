import DepthRaster.Proofs.Image.Gathered
import DepthRaster.Raster.Segment
import Mathlib.Data.Sym.Sym2
/-!
# Segments in images

A segment goes through the same cells whatever the image is. Drawing it sets those that are in the
image and leaves the other pixels as they were. So segments of one colour can be drawn in any order,
each from either end.
-/

namespace DepthRaster.Raster.Segment

open Numeric (Scalar)
open DepthRaster.Geometry (Cell)

theorem mem_steps {first last n : Int} : n ∈ steps first last ↔ first ≤ n ∧ n ≤ last := by
  simp only [steps, List.mem_map, List.mem_range]
  constructor
  · rintro ⟨i, hi, rfl⟩
    omega
  · rintro ⟨hfirst, hlast⟩
    exact ⟨(n - first).toNat, by omega, by omega⟩

/-- Of the cells in an image the segment goes through those of the steps in the image. -/
theorem mem_cellsWithin_iff (α : Type) [Scalar α] (s : Segment) {width height : Nat} {c : Cell}
    (hx : 0 ≤ c.x ∧ c.x < width) (hy : 0 ≤ c.y ∧ c.y < height) :
    c ∈ s.cellsWithin α (if s.steep then height else width) ↔ c ∈ s.cells α := by
  have hstep (n : Int) (hn : s.cellAt α n = c) :
      0 ≤ n ∧ n ≤ ((if s.steep then height else width : Nat) : Int) - 1 := by
    subst hn
    unfold cellAt at hx hy
    cases hsteep : s.steep with
    | true =>
        simp only [hsteep, if_true] at hy ⊢
        omega
    | false =>
        simp only [hsteep, Bool.false_eq_true, if_false] at hx ⊢
        omega
  simp only [cellsWithin, cells, List.mem_map, mem_steps]
  constructor
  · rintro ⟨n, hn, hcell⟩
    exact ⟨n, by omega, hcell⟩
  · rintro ⟨n, hn, hcell⟩
    have := hstep n hcell
    exact ⟨n, by omega, hcell⟩

theorem between_comm (a b : Cell) : between a b = between b a := by
  obtain ⟨ax, ay⟩ := a
  obtain ⟨bx, by'⟩ := b
  have hsteep : (bx - ax).natAbs < (by' - ay).natAbs ↔ (ax - bx).natAbs < (ay - by').natAbs := by
    omega
  simp only [between, Cell.transpose, hsteep]
  -- Ends that agree along the stepped axis are one cell, since the other axis is no longer one.
  by_cases h : (ax - bx).natAbs < (ay - by').natAbs
  · simp only [h, decide_true, if_true]
    rcases Int.lt_trichotomy ay by' with hlt | heq | hgt
    · rw [if_neg (by omega), if_pos hlt]
    · omega
    · rw [if_pos hgt, if_neg (by omega)]
  · simp only [h, decide_false, Bool.false_eq_true, if_false]
    rcases Int.lt_trichotomy ax bx with hlt | rfl | hgt
    · rw [if_neg (by omega), if_pos hlt]
    · obtain rfl : ay = by' := by omega
      rfl
    · rw [if_pos hgt, if_neg (by omega)]

end DepthRaster.Raster.Segment

namespace DepthRaster.Image

open DepthRaster.Geometry (Cell)
open Color (Rgb)
open Numeric (Scalar)
open Raster (Segment)

theorem setCells_eq_setAll (image : Image) (cells : List Cell) (color : Rgb) :
    image.setCells cells color =
      image.setAll (fun c : Cell => (c.x, c.y)) (fun _ => color.toList) cells :=
  rfl

theorem shape_setCells (image : Image) (cells : List Cell) (color : Rgb) :
    (image.setCells cells color).width = image.width ∧
      (image.setCells cells color).height = image.height ∧
      (image.setCells cells color).format = image.format := by
  rw [setCells_eq_setAll]
  exact shape_setAll _ _ image cells

theorem channels_le (format : PixelFormat) (color : Rgb) :
    format.channels ≤ color.toList.length := by
  cases format with
  | gray => exact Nat.le_add_left 1 2
  | rgb => exact Nat.le_refl 3

theorem getPixel_setCells {image : Image} {x y : Int} (hin : image.Has x y) (cells : List Cell)
    (color : Rgb) :
    (image.setCells cells color).getPixel x y =
      if ⟨x, y⟩ ∈ cells then some (color.toList.take image.format.channels)
      else image.getPixel x y := by
  rw [setCells_eq_setAll]
  split_ifs with hmem
  · exact getPixel_setAll_of_mem _ _ image cells color.toList hin (channels_le _ color)
      ⟨⟨x, y⟩, hmem, rfl⟩ fun _ _ _ => rfl
  · apply getPixel_setAll_of_not_mem
    intro c hc heq
    obtain ⟨rfl, rfl⟩ := Prod.mk.inj heq
    exact hmem hc

/-- Cells outside an image are dropped, so cells that agree in the image come to the same. -/
theorem setCells_congr {image : Image} {cells others : List Cell}
    (h : ∀ x y, image.Has x y → (⟨x, y⟩ ∈ cells ↔ ⟨x, y⟩ ∈ others)) (color : Rgb) :
    image.setCells cells color = image.setCells others color := by
  obtain ⟨hw, hh, hf⟩ := image.shape_setCells cells color
  obtain ⟨hw', hh', hf'⟩ := image.shape_setCells others color
  refine ext_getPixel (hw.trans hw'.symm) (hh.trans hh'.symm) (hf.trans hf'.symm) fun x y hin => ?_
  have hin : image.Has x y := by rwa [Has, hw, hh] at hin
  rw [getPixel_setCells hin, getPixel_setCells hin]
  exact if_congr (h x y hin) rfl rfl

/-- Setting cells of a gathered image is gathering the image with the sources of these cells set. -/
theorem setCells_gather {image : Image} {width height : Nat} {source : Nat → Nat → Nat × Nat}
    (hsource : ∀ x < width, ∀ y < height, image.Has (source x y).1 (source x y).2)
    {cells sources : List Cell}
    (h : ∀ x < width, ∀ y < height,
      (⟨x, y⟩ ∈ cells ↔ ⟨(source x y).1, (source x y).2⟩ ∈ sources)) (color : Rgb) :
    (image.gather width height source).setCells cells color =
      (image.setCells sources color).gather width height source := by
  obtain ⟨hw, hh, hf⟩ := (image.gather width height source).shape_setCells cells color
  obtain ⟨hw', hh', hf'⟩ := image.shape_setCells sources color
  refine ext_getPixel hw hh (hf.trans hf'.symm) fun x y hin => ?_
  have hin : (image.gather width height source).Has x y := by rwa [Has, hw, hh] at hin
  obtain ⟨x, y, rfl, rfl, hx, hy⟩ : ∃ i j : ℕ, x = i ∧ y = j ∧ i < width ∧ j < height :=
    hin.exists_nat
  have hset : (image.setCells sources color).Has (source x y).1 (source x y).2 := by
    rw [Has, hw', hh']
    exact hsource x hx y hy
  rw [getPixel_setCells hin, getPixel_gather hx hy (hsource x hx y hy),
    getPixel_gather hx hy hset, getPixel_setCells (hsource x hx y hy)]
  exact if_congr (h x hx y hy) rfl rfl

/-- Drawing a segment, with the other coordinate computed in any scalars. -/
def drawSegmentIn (α : Type) [Scalar α] (image : Image) (a b : Cell) (color : Rgb) : Image :=
  let s := Segment.between a b
  image.setCells (s.cellsWithin α (if s.steep then image.height else image.width)) color

theorem drawSegment_eq (image : Image) (a b : Cell) (color : Rgb) :
    image.drawSegment a b color = image.drawSegmentIn Float a b color :=
  rfl

/-- Taking the steps inside the image comes to the same as taking all of them. -/
theorem drawSegmentIn_eq (α : Type) [Scalar α] (image : Image) (a b : Cell) (color : Rgb) :
    image.drawSegmentIn α a b color =
      image.setCells ((Segment.between a b).cells α) color :=
  setCells_congr (fun _ _ hin =>
    Segment.mem_cellsWithin_iff α _ ⟨hin.1, hin.2.2.1⟩ ⟨hin.2.1, hin.2.2.2⟩) color

theorem shape_drawSegment (image : Image) (a b : Cell) (color : Rgb) :
    (image.drawSegment a b color).width = image.width ∧
      (image.drawSegment a b color).height = image.height ∧
      (image.drawSegment a b color).format = image.format :=
  image.shape_setCells _ color

theorem getPixel_drawSegment {image : Image} (hrgb : image.format = .rgb) {x y : Int}
    (hin : image.Has x y) (a b : Cell) (color : Rgb) :
    (image.drawSegment a b color).getPixel x y =
      if ⟨x, y⟩ ∈ (Segment.between a b).cells Float then some color.toList
      else image.getPixel x y := by
  rw [drawSegment_eq, drawSegmentIn_eq, getPixel_setCells hin, hrgb]
  rfl

theorem getPixel_foldl_drawSegment {image : Image} (hrgb : image.format = .rgb) {x y : Int}
    (hin : image.Has x y) (segments : List (Cell × Cell)) (color : Rgb) :
    (segments.foldl (fun image (a, b) => image.drawSegment a b color) image).getPixel x y =
      if ∃ e ∈ segments, ⟨x, y⟩ ∈ (Segment.between e.1 e.2).cells Float then some color.toList
      else image.getPixel x y := by
  induction segments generalizing image with
  | nil => simp
  | cons e segments ih =>
      obtain ⟨hwidth, hheight, hformat⟩ := image.shape_drawSegment e.1 e.2 color
      have hin' : (image.drawSegment e.1 e.2 color).Has x y := by
        rwa [Has, hwidth, hheight]
      rw [List.foldl_cons, ih (hformat.trans hrgb) hin', getPixel_drawSegment hrgb hin, ← ite_or]
      exact if_congr (by simp only [List.mem_cons, exists_eq_or_imp, or_comm]) rfl rfl

theorem shape_foldl_drawSegment (image : Image) (segments : List (Cell × Cell)) (color : Rgb) :
    let drawn := segments.foldl (fun image (a, b) => image.drawSegment a b color) image
    drawn.width = image.width ∧ drawn.height = image.height ∧ drawn.format = image.format := by
  induction segments generalizing image with
  | nil => exact ⟨rfl, rfl, rfl⟩
  | cons e segments ih =>
      obtain ⟨hwidth, hheight, hformat⟩ := image.shape_drawSegment e.1 e.2 color
      obtain ⟨hw, hh, hf⟩ := ih (image.drawSegment e.1 e.2 color)
      exact ⟨hw.trans hwidth, hh.trans hheight, hf.trans hformat⟩

/-- Drawing the same segments, each from either end, in any order and any number of times. -/
theorem foldl_drawSegment_congr {image : Image} (hrgb : image.format = .rgb)
    {segments others : List (Cell × Cell)}
    (h : ∀ e, e ∈ segments.map (fun e => s(e.1, e.2)) ↔ e ∈ others.map (fun e => s(e.1, e.2)))
    (color : Rgb) :
    segments.foldl (fun image (a, b) => image.drawSegment a b color) image =
      others.foldl (fun image (a, b) => image.drawSegment a b color) image := by
  have hthrough (cell : Cell) {drawn also : List (Cell × Cell)}
      (hsub : ∀ e, e ∈ drawn.map (fun e => s(e.1, e.2)) → e ∈ also.map (fun e => s(e.1, e.2)))
      (hcell : ∃ e ∈ drawn, cell ∈ (Segment.between e.1 e.2).cells Float) :
      ∃ e ∈ also, cell ∈ (Segment.between e.1 e.2).cells Float := by
    obtain ⟨e, he, hcell⟩ := hcell
    obtain ⟨f, hf, hsame⟩ := List.mem_map.mp (hsub _ (List.mem_map_of_mem he))
    refine ⟨f, hf, ?_⟩
    rcases Sym2.eq_iff.mp hsame with ⟨ha, hb⟩ | ⟨ha, hb⟩
    · rwa [ha, hb]
    · rwa [ha, hb, Segment.between_comm]
  obtain ⟨hw, hh, hf⟩ := shape_foldl_drawSegment image segments color
  obtain ⟨hw', hh', hf'⟩ := shape_foldl_drawSegment image others color
  refine ext_getPixel (hw.trans hw'.symm) (hh.trans hh'.symm) (hf.trans hf'.symm) fun x y hin => ?_
  have hin : image.Has x y := by rwa [Has, hw, hh] at hin
  rw [getPixel_foldl_drawSegment hrgb hin, getPixel_foldl_drawSegment hrgb hin]
  exact if_congr ⟨hthrough _ fun e => (h e).mp, hthrough _ fun e => (h e).mpr⟩ rfl rfl

/-! ## Lit pixels -/

/-- Whether drawing a segment gives its colour to a pixel, whichever colour it is. -/
def Lights (image : Image) (a b : Cell) (x y : Int) : Prop :=
  ∀ color, (image.drawSegment a b color).getPixel x y = some color.toList

theorem lights_iff {image : Image} (hrgb : image.format = .rgb) {a b : Cell} {x y : Int} :
    image.Lights a b x y ↔ image.Has x y ∧ ⟨x, y⟩ ∈ (Segment.between a b).cells Float := by
  constructor
  · intro h
    have hin : image.Has x y := by
      obtain ⟨hw, hh, -⟩ := image.shape_drawSegment a b .black
      by_contra hout
      have hnone := h .black
      rw [getPixel_eq_none (by rwa [Has, hw, hh])] at hnone
      exact Option.some_ne_none _ hnone.symm
    refine ⟨hin, ?_⟩
    -- A pixel that is passed by keeps what it showed, which cannot be two colours.
    by_contra hmiss
    have hblack := h .black
    have hwhite := h .white
    rw [getPixel_drawSegment hrgb hin, if_neg hmiss] at hblack hwhite
    exact absurd (hblack.symm.trans hwhite) (by decide)
  · rintro ⟨hin, hmem⟩ color
    rw [getPixel_drawSegment hrgb hin, if_pos hmem]

end DepthRaster.Image
