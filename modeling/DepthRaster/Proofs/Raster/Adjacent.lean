import DepthRaster.Proofs.Geometry.Weights
import DepthRaster.Proofs.Raster.Interior
/-!
# Adjacent triangles

Two triangles of the same winding share an edge when one goes through it in the direction opposite
to the other. The turn with the edge then has opposite signs in the two, so a pixel is on the inner
side of the edge in at least one of them, and in both only when it is on the edge.
-/

namespace DepthRaster.Geometry

/-- The closed segment between two corners has the cells that do not turn with it and that are on
the outer side of no other edge. -/
theorem toPlane_mem_segment_iff {a b c p : Cell} (harea : 0 < turn a b c) :
    p.toPlane ∈ segment ℚ a.toPlane c.toPlane ↔
      0 ≤ turn p b c ∧ turn p c a = 0 ∧ 0 ≤ turn p a b := by
  have hpos : (0 : ℚ) < turn a b c := by exact_mod_cast harea
  constructor
  · rintro ⟨u, v, hu, hv, htotal, hmean⟩
    have hplaces : Weights.Places ⟨u, 0, v⟩ a b c p := by
      refine ⟨?_, ?_⟩
      · linear_combination htotal
      · simpa using hmean
    obtain ⟨hfirst, hsecond, hthird⟩ := hplaces.turns_eq
    have hfirst_nonneg : (0 : ℚ) ≤ turn p b c := hfirst ▸ mul_nonneg hu hpos.le
    have hthird_nonneg : (0 : ℚ) ≤ turn p a b := hthird ▸ mul_nonneg hv hpos.le
    rw [zero_mul] at hsecond
    exact ⟨by exact_mod_cast hfirst_nonneg, by exact_mod_cast hsecond,
      by exact_mod_cast hthird_nonneg⟩
  · rintro ⟨hfirst, hsecond, hthird⟩
    have hplaces := Weights.places_barycentric p (a := a) (b := b) (c := c)
      (by rw [signedArea_rat]; exact (half_pos hpos).ne')
    rw [barycentric_rat, hsecond, Int.cast_zero, zero_div] at hplaces
    obtain ⟨htotal, hmean⟩ := hplaces
    refine ⟨turn p b c / turn a b c, turn p a b / turn a b c, ?_, ?_, ?_, ?_⟩
    · exact div_nonneg (by exact_mod_cast hfirst) hpos.le
    · exact div_nonneg (by exact_mod_cast hthird) hpos.le
    · linear_combination htotal
    · simpa using hmean

end DepthRaster.Geometry

namespace DepthRaster.Raster.Triangle

open DepthRaster.Geometry

def Emits (t : Triangle) (width height x y : ℕ) : Prop :=
  ∃ f ∈ t.fragments Float width height, f.x = x ∧ f.y = y

theorem emits_iff {t : Triangle} (ht : t.Moderate) (hdrawn : t.isDrawn = true)
    {width height x y : ℕ} (hwidth : width ≤ 2 ^ 24) (hheight : height ≤ 2 ^ 24) :
    t.Emits width height x y ↔ x < width ∧ y < height ∧ t.Covers x y := by
  rw [← mem_pixels_fragments_iff ht ((isDrawn_iff ht).mp hdrawn) hwidth hheight, List.mem_map]
  simp only [Emits, Prod.mk.injEq]

variable {a b c d : ScreenVertex} {x y : ℕ}

theorem covers_mk :
    (⟨a, b, c⟩ : Triangle).Covers x y ↔ 0 ≤ turn ⟨x, y⟩ b.cell c.cell ∧
      0 ≤ turn ⟨x, y⟩ c.cell a.cell ∧ 0 ≤ turn ⟨x, y⟩ a.cell b.cell :=
  Iff.rfl

theorem covers_both_iff (harea : 0 < turn a.cell b.cell c.cell)
    (harea' : 0 < turn a.cell c.cell d.cell) :
    (⟨a, b, c⟩ : Triangle).Covers x y ∧ (⟨a, c, d⟩ : Triangle).Covers x y ↔
      Cell.toPlane ⟨x, y⟩ ∈ segment ℚ a.cell.toPlane c.cell.toPlane := by
  have hopposite := turn_swap ⟨x, y⟩ c.cell a.cell
  rw [covers_mk, covers_mk]
  constructor
  · rintro ⟨⟨hbc, hca, hab⟩, -, -, hac⟩
    exact (toPlane_mem_segment_iff harea).mpr ⟨hbc, by omega, hab⟩
  · intro hmem
    -- Seen from the second triangle the segment goes from `c` to `a`.
    have hmem' : Cell.toPlane ⟨x, y⟩ ∈ segment ℚ c.cell.toPlane a.cell.toPlane := by
      rwa [segment_symm]
    rw [← turn_rotate] at harea'
    obtain ⟨hbc, hca, hab⟩ := (toPlane_mem_segment_iff harea).mp hmem
    obtain ⟨hda, hac, hcd⟩ := (toPlane_mem_segment_iff harea').mp hmem'
    exact ⟨⟨hbc, hca.ge, hab⟩, hcd, hda, hac.ge⟩

theorem covers_or_covers (hab : 0 ≤ turn ⟨x, y⟩ a.cell b.cell) (hbc : 0 ≤ turn ⟨x, y⟩ b.cell c.cell)
    (hcd : 0 ≤ turn ⟨x, y⟩ c.cell d.cell) (hda : 0 ≤ turn ⟨x, y⟩ d.cell a.cell) :
    (⟨a, b, c⟩ : Triangle).Covers x y ∨ (⟨a, c, d⟩ : Triangle).Covers x y := by
  have hopposite := turn_swap ⟨x, y⟩ c.cell a.cell
  rw [covers_mk, covers_mk]
  rcases Int.le_total 0 (turn ⟨x, y⟩ c.cell a.cell) with hside | hside
  · exact .inl ⟨hbc, hside, hab⟩
  · exact .inr ⟨hcd, hda, by omega⟩

/-- Two drawn triangles of moderate size meet at the edge from `a` to `c`. The pixels of the buffer
that both of them have are those of the edge, and each pixel on the outer side of none of the other
four edges is in one of the two. -/
theorem emits_adjacent (ha : a.cell.Moderate) (hb : b.cell.Moderate) (hc : c.cell.Moderate)
    (hd : d.cell.Moderate) (hdrawn : (⟨a, b, c⟩ : Triangle).isDrawn = true)
    (hdrawn' : (⟨a, c, d⟩ : Triangle).isDrawn = true) {width height : ℕ} (hwidth : width ≤ 2 ^ 24)
    (hheight : height ≤ 2 ^ 24) (hx : x < width) (hy : y < height) :
    ((⟨a, b, c⟩ : Triangle).Emits width height x y ∧ (⟨a, c, d⟩ : Triangle).Emits width height x y ↔
        Cell.toPlane ⟨x, y⟩ ∈ segment ℚ a.cell.toPlane c.cell.toPlane) ∧
      (0 ≤ turn ⟨x, y⟩ a.cell b.cell → 0 ≤ turn ⟨x, y⟩ b.cell c.cell →
        0 ≤ turn ⟨x, y⟩ c.cell d.cell → 0 ≤ turn ⟨x, y⟩ d.cell a.cell →
        (⟨a, b, c⟩ : Triangle).Emits width height x y ∨
          (⟨a, c, d⟩ : Triangle).Emits width height x y) := by
  have harea : 2 ≤ turn a.cell b.cell c.cell := (isDrawn_iff ⟨ha, hb, hc⟩).mp hdrawn
  have harea' : 2 ≤ turn a.cell c.cell d.cell := (isDrawn_iff ⟨ha, hc, hd⟩).mp hdrawn'
  rw [emits_iff ⟨ha, hb, hc⟩ hdrawn hwidth hheight, emits_iff ⟨ha, hc, hd⟩ hdrawn' hwidth hheight]
  simp only [hx, hy, true_and]
  exact ⟨covers_both_iff (by omega) (by omega), covers_or_covers⟩

/-- The two halves of a dart: one pixel on their common edge and one beside it. -/
theorem emits_adjacent_of_dart :
    let a : ScreenVertex := ⟨0, 0, 9⟩
    let b : ScreenVertex := ⟨6, 1, 9⟩
    let c : ScreenVertex := ⟨2, 2, 9⟩
    let d : ScreenVertex := ⟨1, 6, 9⟩
    let s : Triangle := ⟨a, b, c⟩
    let t : Triangle := ⟨a, c, d⟩
    (s.isDrawn = true ∧ t.isDrawn = true) ∧ (s.Emits 4 4 1 1 ∧ t.Emits 4 4 1 1) ∧
      ¬ (s.Emits 4 4 2 1 ∧ t.Emits 4 4 2 1) ∧ (s.Emits 4 4 2 1 ∨ t.Emits 4 4 2 1) := by
  intro a b c d s t
  have ha : a.cell.Moderate := by constructor <;> decide
  have hb : b.cell.Moderate := by constructor <;> decide
  have hc : c.cell.Moderate := by constructor <;> decide
  have hd : d.cell.Moderate := by constructor <;> decide
  have hs : s.isDrawn = true := (isDrawn_iff ⟨ha, hb, hc⟩).mpr (by decide)
  have ht : t.isDrawn = true := (isDrawn_iff ⟨ha, hc, hd⟩).mpr (by decide)
  have hsize : 4 ≤ 2 ^ 24 := by decide
  have hedge : 0 < turn a.cell b.cell c.cell := by decide
  obtain ⟨hboth, -⟩ :=
    emits_adjacent (x := 1) (y := 1) ha hb hc hd hs ht hsize hsize (by decide) (by decide)
  obtain ⟨hboth', heither⟩ :=
    emits_adjacent (x := 2) (y := 1) ha hb hc hd hs ht hsize hsize (by decide) (by decide)
  refine ⟨⟨hs, ht⟩, hboth.mpr ((toPlane_mem_segment_iff hedge).mpr (by decide)), fun hmem => ?_,
    heither (by decide) (by decide) (by decide) (by decide)⟩
  exact absurd ((toPlane_mem_segment_iff hedge).mp (hboth'.mp hmem)) (by decide)

end DepthRaster.Raster.Triangle
