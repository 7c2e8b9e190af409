import DepthRaster.Proofs.Lists
import DepthRaster.Proofs.Numeric.Comparison
import DepthRaster.Raster.Fragment
import Mathlib.Algebra.Group.Nat.Defs
import Mathlib.Data.List.Basic
/-!
# Covered pixels

The box of a triangle holds the pixels of the buffer that lie within the extent of the triangle. So
the fragment of a triangle at a pixel does not depend on the size of the buffer that has the pixel,
and a triangle that is not drawn has no fragments.
-/

namespace DepthRaster.Raster

open Numeric (Scalar)
open DepthRaster.Geometry (Weights)

/-- Whether a pixel lies between the least and the greatest coordinates of the corners. -/
def Triangle.Spans (t : Triangle) (x y : Nat) : Prop :=
  (min (min t.a.x t.b.x) t.c.x ≤ x ∧ (x : Int) ≤ max (max t.a.x t.b.x) t.c.x) ∧
    min (min t.a.y t.b.y) t.c.y ≤ y ∧ (y : Int) ≤ max (max t.a.y t.b.y) t.c.y

namespace Box

theorem mem_pixels {box : Box} {x y : Nat} :
    (x, y) ∈ box.pixels ↔
      (box.minX ≤ x ∧ x ≤ box.maxX) ∧ box.minY ≤ y ∧ y ≤ box.maxY := by
  rw [pixels, mem_grid, rows, columns, List.mem_range'_1, List.mem_range'_1]
  omega

theorem word_eq {n : Nat} (h : n < 2 ^ 63) : Int.bmod n UInt64.size = n := by
  unfold UInt64.size
  rw [Int.bmod_eq_of_le] <;> omega

/-- The box holds the pixels of the buffer in the extent of the triangle, and there is a box when
there are such pixels. -/
theorem exists_mem_pixels_iff (t : Triangle) {width height : Nat} (hwidth : width < 2 ^ 63)
    (hheight : height < 2 ^ 63) {x y : Nat} :
    (∃ box, ofTriangle t width height = some box ∧ (x, y) ∈ box.pixels) ↔
      x < width ∧ y < height ∧ t.Spans x y := by
  simp only [ofTriangle, word_eq hwidth, word_eq hheight, Triangle.Spans]
  generalize min (min t.a.x t.b.x) t.c.x = minX, min (min t.a.y t.b.y) t.c.y = minY,
    max (max t.a.x t.b.x) t.c.x = maxX, max (max t.a.y t.b.y) t.c.y = maxY
  constructor
  · rintro ⟨box, hbox, hmem⟩
    rw [mem_pixels] at hmem
    split_ifs at hbox
    cases hbox
    dsimp only at hmem
    omega
  · rintro ⟨hx, hy, hspans⟩
    rw [if_neg (by omega), if_neg (by omega)]
    refine ⟨_, rfl, mem_pixels.mpr ?_⟩
    dsimp only
    omega

end Box

namespace Triangle

theorem position_of_fragmentAt {α : Type} [Scalar α] {t : Triangle} {total : α} {x y : Nat}
    {f : Fragment α} (h : t.fragmentAt total x y = some f) : f.x = x ∧ f.y = y := by
  simp only [fragmentAt] at h
  split_ifs at h
  cases h
  exact ⟨rfl, rfl⟩

theorem mem_fragments_iff {α : Type} [Scalar α] (t : Triangle) {width height : Nat}
    (hwidth : width < 2 ^ 63) (hheight : height < 2 ^ 63) {f : Fragment α} :
    f ∈ t.fragments α width height ↔
      f.x < width ∧ f.y < height ∧ t.Spans f.x f.y ∧ ¬ t.area α < Scalar.ofInt 1 ∧
        t.fragmentAt (t.area α) f.x f.y = some f := by
  have hbox := Box.exists_mem_pixels_iff t hwidth hheight (x := f.x) (y := f.y)
  simp only [fragments, coverage]
  by_cases harea : t.area α < Scalar.ofInt 1
  · simp [harea]
  · rw [if_neg harea]
    constructor
    · intro hf
      cases hsome : Box.ofTriangle t width height with
      | none => simp [hsome] at hf
      | some box =>
          simp only [hsome, Option.map_some, List.mem_filterMap] at hf
          obtain ⟨⟨x, y⟩, hmem, hat⟩ := hf
          obtain ⟨rfl, rfl⟩ := position_of_fragmentAt hat
          obtain ⟨hx, hy, hspans⟩ := hbox.mp ⟨box, hsome, hmem⟩
          exact ⟨hx, hy, hspans, harea, hat⟩
    · rintro ⟨hx, hy, hspans, -, hat⟩
      obtain ⟨box, hsome, hmem⟩ := hbox.mpr ⟨hx, hy, hspans⟩
      simp only [hsome, Option.map_some, List.mem_filterMap]
      exact ⟨(f.x, f.y), hmem, hat⟩

theorem inside_eq_false {α : Type} [Scalar α] {w : Weights α} (h : ¬ Scalar.ofInt 0 ≤ w.first) :
    w.inside = false := by
  simp only [Weights.inside, decide_eq_false h, Bool.false_and]

theorem fragmentAt_of_isNaN (t : Triangle) {total : Float} (h : total.isNaN = true) (x y : Nat) :
    t.fragmentAt total x y = none := by
  simp only [fragmentAt]
  rw [if_neg]
  rw [Bool.not_eq_true]
  exact inside_eq_false (Numeric.not_le_of_isNaN _ (Numeric.isNaN_div _ h))

theorem fragments_eq_nil {t : Triangle} (h : t.isDrawn = false) (width height : Nat) :
    t.fragments Float width height = [] := by
  have hle : ¬ (1 : Float) ≤ t.area Float := of_decide_eq_false h
  simp only [fragments, coverage]
  split_ifs with hlt
  · rfl
  · -- The area is no number, so no weight is one either, and no weight passes the test.
    have hnone := t.fragmentAt_of_isNaN (Numeric.isNaN_of_not_lt_of_not_le hlt hle)
    cases Box.ofTriangle t width height with
    | none => rfl
    | some box =>
        rw [Option.map_some, List.filterMap_eq_nil_iff]
        intro p _
        exact hnone p.1 p.2

end Triangle

end DepthRaster.Raster
