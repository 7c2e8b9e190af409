import DepthRaster.Proofs.Geometry.Weights
import DepthRaster.Proofs.Raster.Fragments
import DepthRaster.Proofs.Raster.Interior
/-!
# Winding

Which corner of a triangle comes first makes no difference to the pixels that it covers: the area is
the same, and the weights are taken round with the corners. Taking the corners the other way round
turns the triangle over, so at most one of the two is drawn.
-/

namespace DepthRaster.Geometry

open Numeric

theorem barycentric_rotate {α : Type} [Scalar α] (p a b c : Cell) (total : α) :
    barycentric p b c a total = (barycentric p a b c total).rotate :=
  rfl

theorem Weights.inside_rotate {α : Type} [Scalar α] (w : Weights α) :
    w.rotate.inside = w.inside := by
  unfold Weights.inside
  rw [Bool.and_comm, Bool.and_assoc]
  rfl

end DepthRaster.Geometry

namespace DepthRaster.Raster

open Numeric (Scalar)
open DepthRaster.Geometry

namespace Triangle

def rotate (t : Triangle) : Triangle := ⟨t.b, t.c, t.a⟩

def reverse (t : Triangle) : Triangle := ⟨t.a, t.c, t.b⟩

variable {t : Triangle}

theorem Moderate.rotate (ht : t.Moderate) : t.rotate.Moderate := ⟨ht.b, ht.c, ht.a⟩

theorem Moderate.reverse (ht : t.Moderate) : t.reverse.Moderate := ⟨ht.a, ht.c, ht.b⟩

/-! ## Taking the corners round -/

theorem ofTriangle_rotate (t : Triangle) (width height : ℕ) :
    Box.ofTriangle t.rotate width height = Box.ofTriangle t width height := by
  have hmin (i j k : ℤ) : min (min j k) i = min (min i j) k := by omega
  have hmax (i j k : ℤ) : max (max j k) i = max (max i j) k := by omega
  simp only [Box.ofTriangle, rotate, hmin t.a.x, hmin t.a.y, hmax t.a.x, hmax t.a.y]

theorem isDrawn_rotate (ht : t.Moderate) : t.rotate.isDrawn = t.isDrawn := by
  rw [Bool.eq_iff_iff, isDrawn_iff ht.rotate, isDrawn_iff ht]
  exact (congrArg (2 ≤ ·) (turn_rotate t.a.cell t.b.cell t.c.cell)).to_iff

/-- The area of a drawn triangle is the same double from whichever corner it is computed. -/
theorem area_rotate (ht : t.Moderate) (hdrawn : t.isDrawn = true) :
    t.rotate.area Float = t.area Float := by
  have harea := (isDrawn_iff ht).mp hdrawn
  have hne : (turn t.a.cell t.b.cell t.c.cell / 2 : ℚ) ≠ 0 :=
    (half_pos (by exact_mod_cast (by omega : 0 < turn t.a.cell t.b.cell t.c.cell))).ne'
  have hrotated := isExactly_signedArea ht.b ht.c ht.a
  rw [turn_rotate] at hrotated
  exact hrotated.unique (isExactly_signedArea ht.a ht.b ht.c) hne

/-- The depth is left out: its sum is rounded in another order. -/
theorem map_fragmentAt_rotate {α : Type} [Scalar α] (t : Triangle) (total : α) (x y : ℕ) :
    (t.rotate.fragmentAt total x y).map (fun f => (f.x, f.y, f.weights)) =
      (t.fragmentAt total x y).map fun f => (f.x, f.y, f.weights.rotate) := by
  have hweights := barycentric_rotate ⟨coordinate x, coordinate y⟩ t.a.cell t.b.cell t.c.cell total
  simp only [fragmentAt, rotate, hweights, Weights.inside_rotate]
  split_ifs <;> rfl

theorem map_fragments_rotate (ht : t.Moderate) (width height : ℕ) :
    (t.rotate.fragments Float width height).map (fun f => (f.x, f.y, f.weights)) =
      (t.fragments Float width height).map fun f => (f.x, f.y, f.weights.rotate) := by
  cases hdrawn : t.isDrawn with
  | false =>
      rw [fragments_eq_nil hdrawn, fragments_eq_nil ((isDrawn_rotate ht).trans hdrawn)]
      rfl
  | true =>
      simp only [fragments, coverage, area_rotate ht hdrawn, ofTriangle_rotate]
      split_ifs with hsmall
      · rfl
      · cases Box.ofTriangle t width height with
        | none => rfl
        | some box =>
            simp only [Option.map_some, List.map_filterMap]
            exact List.filterMap_congr fun p _ => map_fragmentAt_rotate t _ p.1 p.2

/-! ## Turning the triangle over -/

theorem isDrawn_reverse (ht : t.Moderate) (hdrawn : t.isDrawn = true) :
    t.reverse.isDrawn = false := by
  have harea := (isDrawn_iff ht).mp hdrawn
  rw [← Bool.not_eq_true, isDrawn_iff ht.reverse]
  have hturn : turn t.reverse.a.cell t.reverse.b.cell t.reverse.c.cell =
      -turn t.a.cell t.b.cell t.c.cell := turn_swap _ _ _
  omega

theorem isDrawn_of_fragments_ne_nil {width height : ℕ}
    (h : t.fragments Float width height ≠ []) : t.isDrawn = true := by
  rw [← Bool.not_eq_false]
  exact fun hculled => h (fragments_eq_nil hculled width height)

/-- A triangle of moderate size covers the same pixels in the same order from whichever corner it is
drawn, and each weight goes with its corner. If it is drawn, or has a fragment at all, the reversed
triangle is not drawn and has none, whether its pixels are gone through in one go or row by row. -/
theorem fragments_wound (t : Triangle) (ht : t.Moderate) (width height : ℕ) :
    ((t.rotate.fragments Float width height).map (fun f => (f.x, f.y, f.weights)) =
        (t.fragments Float width height).map fun f => (f.x, f.y, f.weights.rotate)) ∧
      ((t.rotate.rotate.fragments Float width height).map (fun f => (f.x, f.y, f.weights)) =
        (t.fragments Float width height).map fun f => (f.x, f.y, f.weights.rotate.rotate)) ∧
      (t.isDrawn = true ∨ t.fragments Float width height ≠ [] →
        t.reverse.isDrawn = false ∧ t.reverse.fragments Float width height = [] ∧
          t.reverse.fragmentsByRow Float width height = []) := by
  refine ⟨map_fragments_rotate ht width height, ?_, ?_⟩
  · calc (t.rotate.rotate.fragments Float width height).map (fun f => (f.x, f.y, f.weights))
        = (t.rotate.fragments Float width height).map (fun f => (f.x, f.y, f.weights.rotate)) :=
          map_fragments_rotate ht.rotate width height
      _ = ((t.rotate.fragments Float width height).map (fun f => (f.x, f.y, f.weights))).map
            (fun (x, y, w) => (x, y, w.rotate)) := by rw [List.map_map]; rfl
      _ = _ := by rw [map_fragments_rotate ht width height, List.map_map]; rfl
  · intro hseen
    have hdrawn : t.isDrawn = true := hseen.elim id isDrawn_of_fragments_ne_nil
    have hback := isDrawn_reverse ht hdrawn
    rw [fragmentsByRow_eq_fragments]
    exact ⟨hback, fragments_eq_nil hback width height, fragments_eq_nil hback width height⟩

/-- A triangle that reaches over the edges of its buffer, all of which it covers. -/
theorem fragments_wound_of_overhang :
    let t : Triangle := ⟨⟨-3, -2, 7⟩, ⟨5, 1, 9⟩, ⟨1, 6, 200⟩⟩
    (t.Moderate ∧ t.isDrawn = true) ∧
      (t.fragments Float 2 1).map (fun f => (f.x, f.y)) = [(0, 0), (1, 0)] ∧
      (t.rotate.fragments Float 2 1).map (fun f => (f.x, f.y)) = [(0, 0), (1, 0)] ∧
      (t.rotate.fragments Float 2 1).map (fun f => (f.x, f.y, f.weights)) =
        (t.fragments Float 2 1).map (fun f => (f.x, f.y, f.weights.rotate)) ∧
      t.reverse.isDrawn = false ∧ t.reverse.fragments Float 2 1 = [] := by
  intro t
  have ht : t.Moderate := by constructor <;> constructor <;> decide
  have hdrawn : t.isDrawn = true := (isDrawn_iff ht).mpr (by decide)
  have hcovered : (t.fragments Float 2 1).map (fun f => (f.x, f.y)) = [(0, 0), (1, 0)] := by
    decide +kernel
  obtain ⟨hrotated, -, hreversed⟩ := fragments_wound t ht 2 1
  obtain ⟨hback, hnone, -⟩ := hreversed (.inl hdrawn)
  have hpixels : (t.rotate.fragments Float 2 1).map (fun f => (f.x, f.y)) =
      (t.fragments Float 2 1).map fun f => (f.x, f.y) := by
    have hforgotten := congrArg (List.map fun p => (p.1, p.2.1)) hrotated
    rwa [List.map_map, List.map_map] at hforgotten
  exact ⟨⟨ht, hdrawn⟩, hcovered, hpixels.trans hcovered, hrotated, hback, hnone⟩

end Triangle

end DepthRaster.Raster
