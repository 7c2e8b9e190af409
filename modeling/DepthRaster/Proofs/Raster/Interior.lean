import DepthRaster.Proofs.Geometry.Turn
import DepthRaster.Proofs.Raster.Coverage
import DepthRaster.Proofs.Raster.Export
import Mathlib.Data.List.Sort
/-!
# The interior of a triangle

The fragments of a triangle are the cells of the buffer that lie on the inner side of its three
edges or on the edges themselves. Such cells lie in the extent of the triangle, so scanning the box
finds what scanning the whole buffer does.
-/

namespace DepthRaster.Raster

open Numeric (IsExactly Scalar)
open DepthRaster.Geometry

/-! ## Pixels in order -/

def Precedes (p q : ℕ × ℕ) : Prop := p.2 < q.2 ∨ p.2 = q.2 ∧ p.1 < q.1

def allPixels (width height : ℕ) : List (ℕ × ℕ) :=
  (List.range height).flatMap fun y => (List.range width).map fun x => (x, y)

theorem mem_allPixels {width height x y : ℕ} :
    (x, y) ∈ allPixels width height ↔ x < width ∧ y < height := by
  rw [allPixels, mem_grid, List.mem_range, List.mem_range]

theorem pairwise_precedes_grid (left columns bottom rows : ℕ) :
    ((List.range' bottom rows).flatMap fun y =>
      (List.range' left columns).map fun x => (x, y)).Pairwise Precedes := by
  rw [List.pairwise_flatMap]
  constructor
  · intro y _
    rw [List.pairwise_map]
    exact (List.pairwise_lt_range' 1).imp fun hlt => .inr ⟨rfl, hlt⟩
  · refine (List.pairwise_lt_range' 1).imp fun {y y'} hlt p hp q hq => ?_
    obtain ⟨x, -, rfl⟩ := List.mem_map.mp hp
    obtain ⟨x', -, rfl⟩ := List.mem_map.mp hq
    exact .inl hlt

theorem pairwise_allPixels (width height : ℕ) : (allPixels width height).Pairwise Precedes := by
  unfold allPixels
  rw [List.range_eq_range', List.range_eq_range']
  exact pairwise_precedes_grid 0 width 0 height

theorem Box.pairwise_pixels (box : Box) : box.pixels.Pairwise Precedes :=
  pairwise_precedes_grid _ _ _ _

/-- Lists of fragments in the order of the pixels are equal when they have the same fragments. -/
theorem eq_of_precedes {α : Type} {l l' : List (Fragment α)}
    (hl : l.Pairwise fun f g => Precedes (f.x, f.y) (g.x, g.y))
    (hl' : l'.Pairwise fun f g => Precedes (f.x, f.y) (g.x, g.y)) (h : ∀ f, f ∈ l ↔ f ∈ l') :
    l = l' := by
  have : Std.Irrefl fun f g : Fragment α => Precedes (f.x, f.y) (g.x, g.y) :=
    ⟨fun f => by unfold Precedes; omega⟩
  have : Std.Antisymm fun f g : Fragment α => Precedes (f.x, f.y) (g.x, g.y) :=
    ⟨fun f g hfg hgf => by unfold Precedes at hfg hgf; omega⟩
  exact hl.eq_of_mem_iff hl' h

namespace Triangle

/-! ## Cells inside -/

/-- Whether a triangle has a pixel: the pixel is on the outer side of none of the edges. -/
def Covers (t : Triangle) (x y : ℕ) : Prop :=
  0 ≤ turn ⟨x, y⟩ t.b.cell t.c.cell ∧ 0 ≤ turn ⟨x, y⟩ t.c.cell t.a.cell ∧
    0 ≤ turn ⟨x, y⟩ t.a.cell t.b.cell

instance (t : Triangle) (x y : ℕ) : Decidable (t.Covers x y) :=
  inferInstanceAs (Decidable (_ ∧ _))

structure Moderate (t : Triangle) : Prop where
  a : t.a.cell.Moderate
  b : t.b.cell.Moderate
  c : t.c.cell.Moderate

variable {t : Triangle} {x y width height : ℕ}

theorem Covers.spans (h : t.Covers x y) (harea : 0 < turn t.a.cell t.b.cell t.c.cell) :
    t.Spans x y := by
  obtain ⟨ha, hb, hc⟩ := h
  have hx := turn_mul_x ⟨x, y⟩ t.a.cell t.b.cell t.c.cell
  have hy := turn_mul_y ⟨x, y⟩ t.a.cell t.b.cell t.c.cell
  rw [← turn_add ⟨x, y⟩ t.a.cell t.b.cell t.c.cell] at harea hx hy
  exact ⟨between_of_weighted ha hb hc harea hx, between_of_weighted ha hb hc harea hy⟩

theorem isDrawn_iff (ht : t.Moderate) :
    t.isDrawn = true ↔ 2 ≤ turn t.a.cell t.b.cell t.c.cell := by
  have hone : IsExactly (1 : Float) 1 := by exact_mod_cast IsExactly.ofNat (n := 1) (by decide)
  rw [isDrawn, decide_eq_true_iff, area, hone.le_iff (isExactly_signedArea ht.a ht.b ht.c),
    le_div_iff₀ two_pos, one_mul]
  exact_mod_cast Iff.rfl

theorem isSome_fragmentAt_iff (ht : t.Moderate) (harea : 2 ≤ turn t.a.cell t.b.cell t.c.cell)
    (hx : x ≤ 2 ^ 24) (hy : y ≤ 2 ^ 24) :
    (t.fragmentAt (t.area Float) x y).isSome = true ↔ t.Covers x y := by
  have hcell : Cell.Moderate ⟨x, y⟩ := ⟨by simpa using hx, by simpa using hy⟩
  have hinside := inside_barycentric_iff hcell ht.a ht.b ht.c harea
  rw [Covers, ← hinside, fragmentAt, FrameBuffer.coordinate_eq (show x < 2 ^ 31 by omega),
    FrameBuffer.coordinate_eq (show y < 2 ^ 31 by omega)]
  exact Option.isSome_ite

theorem pairwise_filterMap_fragmentAt {α : Type} [Scalar α] {l : List (ℕ × ℕ)}
    (h : l.Pairwise Precedes) (t : Triangle) (total : α) :
    (l.filterMap fun (x, y) => t.fragmentAt total x y).Pairwise
      fun f g => Precedes (f.x, f.y) (g.x, g.y) := by
  rw [List.pairwise_filterMap]
  refine h.imp fun {p q} hpq f hf g hg => ?_
  obtain ⟨hfx, hfy⟩ := position_of_fragmentAt hf
  obtain ⟨hgx, hgy⟩ := position_of_fragmentAt hg
  rw [hfx, hfy, hgx, hgy]
  exact hpq

theorem pairwise_fragments {α : Type} [Scalar α] (t : Triangle) (width height : ℕ) :
    (t.fragments α width height).Pairwise fun f g => Precedes (f.x, f.y) (g.x, g.y) := by
  unfold fragments
  cases t.coverage α width height with
  | none => exact .nil
  | some found => exact pairwise_filterMap_fragmentAt found.1.pairwise_pixels t found.2

/-- Scanning the box finds what scanning the whole buffer does. -/
theorem fragments_eq_filterMap_allPixels (ht : t.Moderate)
    (harea : 2 ≤ turn t.a.cell t.b.cell t.c.cell) (hwidth : width ≤ 2 ^ 24)
    (hheight : height ≤ 2 ^ 24) :
    t.fragments Float width height =
      (allPixels width height).filterMap fun (x, y) => t.fragmentAt (t.area Float) x y := by
  refine eq_of_precedes (t.pairwise_fragments width height)
    (pairwise_filterMap_fragmentAt (pairwise_allPixels width height) t _) fun f => ?_
  have hdrawn : ¬ t.area Float < Scalar.ofInt 1 := by
    rw [area, signedArea_lt_one_iff ht.a ht.b ht.c]
    omega
  rw [t.mem_fragments_iff (by omega) (by omega), List.mem_filterMap]
  constructor
  · rintro ⟨hx, hy, -, -, hat⟩
    exact ⟨(f.x, f.y), mem_allPixels.mpr ⟨hx, hy⟩, hat⟩
  · rintro ⟨⟨x, y⟩, hmem, hat⟩
    obtain ⟨rfl, rfl⟩ := position_of_fragmentAt hat
    obtain ⟨hx, hy⟩ := mem_allPixels.mp hmem
    have hcovers : t.Covers f.x f.y :=
      (isSome_fragmentAt_iff ht harea (by omega) (by omega)).mp (Option.isSome_of_eq_some hat)
    exact ⟨hx, hy, hcovers.spans (by omega), hdrawn, hat⟩

theorem mem_pixels_fragments_iff (ht : t.Moderate)
    (harea : 2 ≤ turn t.a.cell t.b.cell t.c.cell) (hwidth : width ≤ 2 ^ 24)
    (hheight : height ≤ 2 ^ 24) :
    (x, y) ∈ (t.fragments Float width height).map (fun f => (f.x, f.y)) ↔
      x < width ∧ y < height ∧ t.Covers x y := by
  rw [fragments_eq_filterMap_allPixels ht harea hwidth hheight, List.mem_map]
  constructor
  · rintro ⟨f, hf, hposition⟩
    obtain ⟨⟨x', y'⟩, hmem, hat⟩ := List.mem_filterMap.mp hf
    obtain ⟨hx, hy⟩ := mem_allPixels.mp hmem
    have hcovers : t.Covers x' y' :=
      (isSome_fragmentAt_iff ht harea (by omega) (by omega)).mp (Option.isSome_of_eq_some hat)
    obtain ⟨rfl, rfl⟩ := position_of_fragmentAt hat
    obtain ⟨rfl, rfl⟩ := Prod.mk.inj hposition
    exact ⟨hx, hy, hcovers⟩
  · rintro ⟨hx, hy, hcovers⟩
    obtain ⟨f, hat⟩ := Option.isSome_iff_exists.mp
      ((isSome_fragmentAt_iff ht harea (by omega) (by omega)).mpr hcovers)
    obtain ⟨rfl, rfl⟩ := position_of_fragmentAt hat
    exact ⟨f, List.mem_filterMap.mpr ⟨(f.x, f.y), mem_allPixels.mpr ⟨hx, hy⟩, hat⟩, rfl⟩

/-- A triangle of moderate size has no fragments when it covers less than one pixel. Otherwise the
pixels of its fragments are, row by row and each once, those of the buffer that are on the outer
side of no edge; scanning the whole buffer would find no more of them. -/
theorem fragments_cover_interior (t : Triangle) (ht : t.Moderate) {width height : ℕ}
    (hwidth : width ≤ 2 ^ 24) (hheight : height ≤ 2 ^ 24) :
    (turn t.a.cell t.b.cell t.c.cell < 2 → t.fragments Float width height = []) ∧
      (2 ≤ turn t.a.cell t.b.cell t.c.cell →
        ((t.fragments Float width height).map fun f => (f.x, f.y)).Pairwise Precedes ∧
          (∀ x y, (x, y) ∈ (t.fragments Float width height).map (fun f => (f.x, f.y)) ↔
            x < width ∧ y < height ∧ t.Covers x y) ∧
          t.fragments Float width height =
            (allPixels width height).filterMap fun (x, y) => t.fragmentAt (t.area Float) x y) := by
  constructor
  · intro hsmall
    have hculled : t.area Float < Scalar.ofInt 1 :=
      (signedArea_lt_one_iff ht.a ht.b ht.c).mpr hsmall
    simp only [fragments, coverage, if_pos hculled]
  · intro harea
    exact ⟨List.pairwise_map.mpr (t.pairwise_fragments width height),
      fun x y => mem_pixels_fragments_iff ht harea hwidth hheight,
      fragments_eq_filterMap_allPixels ht harea hwidth hheight⟩

/-- A triangle that reaches over the edges of its buffer, one with too little area, and one seen
from behind. -/
theorem fragments_cover_interior_of_three :
    (∀ x y, (x, y) ∈ ((⟨⟨-2, -1, 9⟩, ⟨5, 1, 9⟩, ⟨1, 6, 9⟩⟩ : Triangle).fragments Float 4 4).map
        (fun f => (f.x, f.y)) ↔
      x < 4 ∧ y < 4 ∧ (⟨⟨-2, -1, 9⟩, ⟨5, 1, 9⟩, ⟨1, 6, 9⟩⟩ : Triangle).Covers x y) ∧
      (⟨⟨0, 0, 9⟩, ⟨1, 0, 9⟩, ⟨0, 1, 9⟩⟩ : Triangle).fragments Float 4 4 = [] ∧
      (⟨⟨-2, -1, 9⟩, ⟨1, 6, 9⟩, ⟨5, 1, 9⟩⟩ : Triangle).fragments Float 4 4 = [] :=
  ⟨((fragments_cover_interior _ (by constructor <;> constructor <;> decide) (by decide)
      (by decide)).2 (by decide)).2.1,
    (fragments_cover_interior _ (by constructor <;> constructor <;> decide) (by decide)
      (by decide)).1 (by decide),
    (fragments_cover_interior _ (by constructor <;> constructor <;> decide) (by decide)
      (by decide)).1 (by decide)⟩

end Triangle

end DepthRaster.Raster
