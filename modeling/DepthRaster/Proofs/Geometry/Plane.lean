import DepthRaster.Geometry.Area
import Mathlib
/-!
# Triangles in the rational plane

Three points of the plane make a turn, which is zero when they lie on a line. The weights of a point
in a triangle are the turns it makes with the edges, as shares of the turn of the triangle. No other
weights of the sum one make the point the mean of the corners. Interpolation with them is affine in
the point.
-/

namespace DepthRaster.Geometry

def planeTurn (p q r : ℚ × ℚ) : ℚ := (q.1 - p.1) * (r.2 - p.2) - (q.2 - p.2) * (r.1 - p.1)

theorem planeTurn_rotate (a b c : ℚ × ℚ) : planeTurn b c a = planeTurn a b c := by
  unfold planeTurn
  ring

theorem collinear_iff_planeTurn_eq_zero {a b c : ℚ × ℚ} :
    Collinear ℚ {a, b, c} ↔ planeTurn a b c = 0 := by
  rw [collinear_iff_of_mem (Set.mem_insert a {b, c})]
  simp only [Set.forall_mem_insert, Set.mem_singleton_iff, forall_eq, vadd_eq_add]
  constructor
  · rintro ⟨v, -, ⟨r, rfl⟩, ⟨s, rfl⟩⟩
    simp only [planeTurn, Prod.fst_add, Prod.snd_add, Prod.smul_fst, Prod.smul_snd, smul_eq_mul]
    ring
  · intro hturn
    rw [planeTurn] at hturn
    by_cases hab : b = a
    · exact ⟨c - a, ⟨0, by simp⟩, ⟨0, by simp [hab]⟩, ⟨1, by simp⟩⟩
    -- The foot of the third point on the line through the other two is the point itself.
    have hlength : (b.1 - a.1) ^ 2 + (b.2 - a.2) ^ 2 ≠ 0 := by
      intro hzero
      obtain ⟨hx, hy⟩ := (add_eq_zero_iff_of_nonneg (sq_nonneg _) (sq_nonneg _)).mp hzero
      exact hab (Prod.ext (sub_eq_zero.mp (pow_eq_zero_iff two_ne_zero |>.mp hx))
        (sub_eq_zero.mp (pow_eq_zero_iff two_ne_zero |>.mp hy)))
    refine ⟨b - a, ⟨0, by simp⟩, ⟨1, by simp⟩,
      ⟨((c.1 - a.1) * (b.1 - a.1) + (c.2 - a.2) * (b.2 - a.2)) /
        ((b.1 - a.1) ^ 2 + (b.2 - a.2) ^ 2), Prod.ext ?_ ?_⟩⟩
    · simp only [Prod.fst_add, Prod.smul_fst, Prod.fst_sub, smul_eq_mul]
      field_simp
      linear_combination (a.2 - b.2) * hturn
    · simp only [Prod.snd_add, Prod.smul_snd, Prod.snd_sub, smul_eq_mul]
      field_simp
      linear_combination (b.1 - a.1) * hturn

/-! ## Weights -/

/-- The weights of a point in a triangle. -/
def planeWeights (p a b c : ℚ × ℚ) : Weights ℚ where
  first := planeTurn p b c / planeTurn a b c
  second := planeTurn p c a / planeTurn a b c
  third := planeTurn p a b / planeTurn a b c

namespace Weights

def rotate {α : Type} (w : Weights α) : Weights α := ⟨w.second, w.third, w.first⟩

/-- Whether weights have the sum one and make a point the mean of three others. -/
structure Averages (w : Weights ℚ) (a b c p : ℚ × ℚ) : Prop where
  total : w.first + w.second + w.third = 1
  mean : w.first • a + w.second • b + w.third • c = p

variable {w : Weights ℚ} {a b c p : ℚ × ℚ}

theorem Averages.rotate (h : w.Averages a b c p) : w.rotate.Averages b c a p where
  total := by rw [add_comm, ← add_assoc]; exact h.total
  mean := by rw [add_comm, ← add_assoc]; exact h.mean

theorem Averages.turn_eq (h : w.Averages a b c p) :
    planeTurn p b c = w.first * planeTurn a b c := by
  obtain ⟨htotal, rfl⟩ := h
  simp only [planeTurn, Prod.fst_add, Prod.snd_add, Prod.smul_fst, Prod.smul_snd, smul_eq_mul]
  linear_combination (b.2 * c.1 - b.1 * c.2) * htotal

theorem Averages.turns_eq (h : w.Averages a b c p) :
    planeTurn p b c = w.first * planeTurn a b c ∧ planeTurn p c a = w.second * planeTurn a b c ∧
      planeTurn p a b = w.third * planeTurn a b c := by
  have hsecond : planeTurn p c a = w.second * planeTurn b c a := h.rotate.turn_eq
  have hthird : planeTurn p a b = w.third * planeTurn c a b := h.rotate.rotate.turn_eq
  rw [planeTurn_rotate a b c] at hsecond
  rw [planeTurn_rotate b c a, planeTurn_rotate a b c] at hthird
  exact ⟨h.turn_eq, hsecond, hthird⟩

theorem Averages.eq_planeWeights (h : w.Averages a b c p) (hturn : planeTurn a b c ≠ 0) :
    w = planeWeights p a b c := by
  obtain ⟨hfirst, hsecond, hthird⟩ := h.turns_eq
  rw [planeWeights, hfirst, hsecond, hthird, mul_div_cancel_right₀ _ hturn,
    mul_div_cancel_right₀ _ hturn, mul_div_cancel_right₀ _ hturn]

end Weights

/-! ## Interpolation -/

def turnMap (b c : ℚ × ℚ) : ℚ × ℚ →ᵃ[ℚ] ℚ :=
  (b.2 - c.2) • AffineMap.fst + (c.1 - b.1) • AffineMap.snd +
    AffineMap.const ℚ (ℚ × ℚ) (b.1 * c.2 - b.2 * c.1)

theorem turnMap_apply (b c p : ℚ × ℚ) : turnMap b c p = planeTurn p b c := by
  change (b.2 - c.2) * p.1 + (c.1 - b.1) * p.2 + (b.1 * c.2 - b.2 * c.1) = _
  rw [planeTurn]
  ring

def interpolation (a b c : ℚ × ℚ) (i j k : ℚ) : ℚ × ℚ →ᵃ[ℚ] ℚ :=
  (i / planeTurn a b c) • turnMap b c + (j / planeTurn a b c) • turnMap c a +
    (k / planeTurn a b c) • turnMap a b

theorem interpolation_apply (p a b c : ℚ × ℚ) (i j k : ℚ) :
    interpolation a b c i j k p = (planeWeights p a b c).interpolate i j k := by
  change i / planeTurn a b c * turnMap b c p + j / planeTurn a b c * turnMap c a p +
    k / planeTurn a b c * turnMap a b p = _
  rw [turnMap_apply, turnMap_apply, turnMap_apply, div_mul_comm, div_mul_comm j, div_mul_comm k]
  rfl

end DepthRaster.Geometry
