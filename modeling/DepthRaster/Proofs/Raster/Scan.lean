import DepthRaster.Proofs.Raster.Interior
/-!
# Scanning the box of a triangle

The box of a triangle is what the buffer has of the rectangle around the corners, and there is none
just when the buffer has nothing of it. Each of its pixels is visited once. Corners of 32 bits keep
the number of pixels, and all that is computed on the way to it, within words of 64 bits.
-/

namespace DepthRaster.Raster

open DepthRaster.Geometry (minCoordinate maxCoordinate)

def word? (n : ℤ) : Option ℕ := if 0 ≤ n ∧ n < 2 ^ 64 then some n.toNat else none

theorem word?_eq_some {n : ℤ} {m : ℕ} (h : n = m) (hlt : m < 2 ^ 64) : word? n = some m := by
  rw [word?, if_pos (by omega), h, Int.toNat_natCast]

structure Triangle.InRange (t : Triangle) : Prop where
  a : t.a.cell.InRange
  b : t.b.cell.InRange
  c : t.c.cell.InRange

theorem Triangle.Spans.lt {t : Triangle} {x y : ℕ} (h : t.Spans x y) (ht : t.InRange) :
    x < 2 ^ 31 ∧ y < 2 ^ 31 := by
  obtain ⟨⟨-, hax⟩, -, hay⟩ := ht.a
  obtain ⟨⟨-, hbx⟩, -, hby⟩ := ht.b
  obtain ⟨⟨-, hcx⟩, -, hcy⟩ := ht.c
  have hx := h.1.2.trans (max_le (max_le hax hbx) hcx)
  have hy := h.2.2.trans (max_le (max_le hay hby) hcy)
  unfold maxCoordinate at hx hy
  omega

namespace Box

def extent? (low high : ℕ) : Option ℕ := do
  let difference ← word? (high - low)
  word? (difference + 1)

/-- The number of pixels, if each step of finding it gives a word. -/
def pixelCount? (box : Box) : Option ℕ := do
  let columns ← extent? box.minX box.maxX
  let rows ← extent? box.minY box.maxY
  word? (columns * rows)

theorem length_pixels (box : Box) : box.pixels.length = box.pixelCount := by
  simp [pixels, rows, columns, pixelCount, List.length_flatMap, Nat.mul_comm]

theorem extent?_eq {low high : ℕ} (hle : low ≤ high) (hlt : high < 2 ^ 31) :
    extent? low high = some (high + 1 - low) := by
  have hdifference : word? (high - low) = some (high - low) := word?_eq_some (by omega) (by omega)
  rw [extent?, hdifference, Option.bind_eq_bind, Option.bind_some]
  exact word?_eq_some (by omega) (by omega)

theorem pixelCount?_eq {box : Box} (hx : box.minX ≤ box.maxX ∧ box.maxX < 2 ^ 31)
    (hy : box.minY ≤ box.maxY ∧ box.maxY < 2 ^ 31) : box.pixelCount? = some box.pixelCount := by
  have hcount : (box.maxX + 1 - box.minX) * (box.maxY + 1 - box.minY) ≤ 2 ^ 31 * 2 ^ 31 :=
    Nat.mul_le_mul (by omega) (by omega)
  rw [pixelCount?, extent?_eq hx.1 hx.2, extent?_eq hy.1 hy.2, Option.bind_eq_bind,
    Option.bind_some, Option.bind_some]
  apply word?_eq_some
  · exact (Nat.cast_mul _ _).symm
  · exact Nat.lt_of_le_of_lt hcount (by decide)

section

variable {t : Triangle} {width height : ℕ} (hwidth : width < 2 ^ 63) (hheight : height < 2 ^ 63)

include hwidth hheight

theorem bounds_of_ofTriangle {box : Box} (h : ofTriangle t width height = some box) :
    (box.minX ≤ box.maxX ∧ box.maxX < width) ∧ box.minY ≤ box.maxY ∧ box.maxY < height := by
  have hx : min (min t.a.x t.b.x) t.c.x ≤ max (max t.a.x t.b.x) t.c.x :=
    (min_le_right _ _).trans (le_max_right _ _)
  have hy : min (min t.a.y t.b.y) t.c.y ≤ max (max t.a.y t.b.y) t.c.y :=
    (min_le_right _ _).trans (le_max_right _ _)
  simp only [ofTriangle, word_eq hwidth, word_eq hheight] at h
  generalize min (min t.a.x t.b.x) t.c.x = minX, min (min t.a.y t.b.y) t.c.y = minY,
    max (max t.a.x t.b.x) t.c.x = maxX, max (max t.a.y t.b.y) t.c.y = maxY at h hx hy
  split_ifs at h
  cases h
  dsimp only
  omega

theorem mem_pixels_iff_of_ofTriangle {box : Box} (h : ofTriangle t width height = some box)
    (x y : ℕ) : (x, y) ∈ box.pixels ↔ (x < width ∧ y < height) ∧ t.Spans x y := by
  have hiff := exists_mem_pixels_iff t hwidth hheight (x := x) (y := y)
  simpa only [h, Option.some.injEq, exists_eq_left', and_assoc] using hiff

theorem ofTriangle_eq_none_iff :
    ofTriangle t width height = none ↔ ∀ x < width, ∀ y < height, ¬ t.Spans x y := by
  constructor
  · intro hnone x hx y hy hspans
    obtain ⟨box, hbox, -⟩ := (exists_mem_pixels_iff t hwidth hheight).mpr ⟨hx, hy, hspans⟩
    exact Option.some_ne_none box (hbox.symm.trans hnone)
  · intro hmissed
    by_contra hsome
    obtain ⟨box, hbox⟩ := Option.ne_none_iff_exists'.mp hsome
    -- A box is never empty: its lowest pixel would be one of the triangle.
    obtain ⟨hx, hy⟩ := bounds_of_ofTriangle hwidth hheight hbox
    have hlowest : (box.minX, box.minY) ∈ box.pixels :=
      mem_pixels.mpr ⟨⟨Nat.le_refl _, hx.1⟩, Nat.le_refl _, hy.1⟩
    obtain ⟨⟨hx, hy⟩, hspans⟩ :=
      (mem_pixels_iff_of_ofTriangle hwidth hheight hbox _ _).mp hlowest
    exact hmissed box.minX hx box.minY hy hspans

/-- A triangle has no box just when no pixel of the buffer lies between the least and the greatest
coordinates of its corners. Its box lies in the buffer and is not empty. The scan of the box lists
just the pixels of the buffer in that extent, in their order, and they are as many as is computed in
words, of which no step is negative or too large. -/
theorem ofTriangle_scanned (ht : t.InRange) :
    (ofTriangle t width height = none ↔ ∀ x < width, ∀ y < height, ¬ t.Spans x y) ∧
      ∀ box, ofTriangle t width height = some box →
        ((box.minX ≤ box.maxX ∧ box.maxX < width) ∧ box.minY ≤ box.maxY ∧ box.maxY < height) ∧
        (∀ x y, (x, y) ∈ box.pixels ↔ (x < width ∧ y < height) ∧ t.Spans x y) ∧
        box.pixels.Pairwise Precedes ∧
        box.pixels.length = box.pixelCount ∧ box.pixelCount? = some box.pixelCount := by
  refine ⟨ofTriangle_eq_none_iff hwidth hheight, fun box hbox => ?_⟩
  obtain ⟨hx, hy⟩ := bounds_of_ofTriangle hwidth hheight hbox
  have hmem := mem_pixels_iff_of_ofTriangle hwidth hheight hbox
  have hlast : (box.maxX, box.maxY) ∈ box.pixels :=
    mem_pixels.mpr ⟨⟨hx.1, Nat.le_refl _⟩, hy.1, Nat.le_refl _⟩
  obtain ⟨hlastX, hlastY⟩ := ((hmem _ _).mp hlast).2.lt ht
  exact ⟨⟨hx, hy⟩, hmem, box.pairwise_pixels, box.length_pixels,
    pixelCount?_eq ⟨hx.1, hlastX⟩ ⟨hy.1, hlastY⟩⟩

end

/-- The largest triangle in the largest buffer has a box of `2 ^ 62` pixels. One that ends just
before the first column has none. -/
theorem ofTriangle_scanned_of_extremes :
    let widest : Triangle :=
      ⟨⟨minCoordinate, minCoordinate, 1⟩, ⟨maxCoordinate, minCoordinate, 1⟩,
        ⟨minCoordinate, maxCoordinate, 1⟩⟩
    let box : Box := ⟨0, 0, 2147483647, 2147483647⟩
    let beside : Triangle := ⟨⟨-1, 0, 1⟩, ⟨-1, 5, 1⟩, ⟨-7, 5, 1⟩⟩
    ofTriangle widest (2 ^ 63 - 1) (2 ^ 63 - 1) = some box ∧
      box.pixels.length = 2 ^ 62 ∧ box.pixelCount? = some (2 ^ 62) ∧
      ofTriangle beside 4 4 = none := by
  intro widest box beside
  have hbox : ofTriangle widest (2 ^ 63 - 1) (2 ^ 63 - 1) = some box := by decide +kernel
  have hwidest : widest.InRange := by constructor <;> unfold Geometry.Cell.InRange <;> decide
  have hbeside : beside.InRange := by constructor <;> unfold Geometry.Cell.InRange <;> decide
  obtain ⟨-, -, -, hlength, hcount⟩ :=
    (ofTriangle_scanned (by decide) (by decide) hwidest).2 box hbox
  have hfour : 4 < 2 ^ 63 := by decide
  have hnone := (ofTriangle_scanned hfour hfour hbeside).1
  have hpixels : box.pixelCount = 2 ^ 62 := by decide +kernel
  rw [hpixels] at hlength hcount
  exact ⟨hbox, hlength, hcount, hnone.mpr (by unfold Triangle.Spans; decide)⟩

end Box

end DepthRaster.Raster
