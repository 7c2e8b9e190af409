import DepthRaster.Proofs.Geometry.Plane
import DepthRaster.Proofs.Geometry.Turn
/-!
# Weights over the rationals

In exact arithmetic the weights of a cell are its turns as shares of the turn of the triangle. They
have the sum one and make the cell the mean of the corners, which no other weights do. So whatever
is affine in the plane and known at the corners has its value at the cell as the weighted sum.
-/

namespace DepthRaster.Geometry

open Numeric

/-- A cell as a point of the rational plane. -/
def Cell.toPlane (p : Cell) : ℚ × ℚ := (p.x, p.y)

theorem signedArea_rat (p q r : Cell) : signedArea ℚ p q r = turn p q r / 2 := by
  rw [← strips_eq_turn]
  push_cast
  rfl

theorem barycentric_rat (p a b c : Cell) :
    barycentric p a b c (signedArea ℚ a b c) =
      ⟨turn p b c / turn a b c, turn p c a / turn a b c, turn p a b / turn a b c⟩ := by
  have hshare (q r : Cell) :
      signedArea ℚ p q r / signedArea ℚ a b c = turn p q r / turn a b c := by
    rw [signedArea_rat, signedArea_rat, div_div_div_cancel_right₀ two_ne_zero]
  rw [← hshare, ← hshare, ← hshare]
  rfl

theorem planeTurn_toPlane (p q r : Cell) :
    planeTurn p.toPlane q.toPlane r.toPlane = turn p q r := by
  unfold turn
  push_cast
  rfl

theorem barycentric_eq_planeWeights (p a b c : Cell) :
    barycentric p a b c (signedArea ℚ a b c) =
      planeWeights p.toPlane a.toPlane b.toPlane c.toPlane := by
  simp only [barycentric_rat, planeWeights, planeTurn_toPlane]

theorem inside_barycentric_rat_iff {p a b c : Cell} (harea : 0 < turn a b c) :
    (barycentric p a b c (signedArea ℚ a b c)).inside = true ↔
      0 ≤ turn p b c ∧ 0 ≤ turn p c a ∧ 0 ≤ turn p a b := by
  have hpos : (0 : ℚ) < turn a b c := by exact_mod_cast harea
  have hsign (n : ℤ) : (Scalar.ofInt 0 : ℚ) ≤ n / turn a b c ↔ 0 ≤ n := by
    change ((0 : ℤ) : ℚ) ≤ _ ↔ _
    rw [le_div_iff₀ hpos, Int.cast_zero, zero_mul]
    exact_mod_cast Iff.rfl
  rw [barycentric_rat]
  simp only [Weights.inside, Bool.and_eq_true, decide_eq_true_eq, and_assoc, hsign]

namespace Weights

/-- Whether weights have the sum one and make a cell the mean of three corners. -/
structure Places (w : Weights ℚ) (a b c p : Cell) : Prop where
  total : w.first + w.second + w.third = 1
  mean : w.first • a.toPlane + w.second • b.toPlane + w.third • c.toPlane = p.toPlane

variable {w : Weights ℚ} {a b c p : Cell}

theorem places_iff :
    w.Places a b c p ↔ w.first + w.second + w.third = 1 ∧
      w.first * a.x + w.second * b.x + w.third * c.x = p.x ∧
      w.first * a.y + w.second * b.y + w.third * c.y = p.y := by
  constructor
  · rintro ⟨htotal, hmean⟩
    exact ⟨htotal, congrArg Prod.fst hmean, congrArg Prod.snd hmean⟩
  · rintro ⟨htotal, hx, hy⟩
    exact ⟨htotal, Prod.ext hx hy⟩

theorem Places.averages (h : w.Places a b c p) :
    w.Averages a.toPlane b.toPlane c.toPlane p.toPlane :=
  ⟨h.total, h.mean⟩

theorem Places.turns_eq (h : w.Places a b c p) :
    (turn p b c : ℚ) = w.first * turn a b c ∧ (turn p c a : ℚ) = w.second * turn a b c ∧
      (turn p a b : ℚ) = w.third * turn a b c := by
  simpa only [planeTurn_toPlane] using h.averages.turns_eq

theorem Places.eq_barycentric (h : w.Places a b c p) (harea : signedArea ℚ a b c ≠ 0) :
    w = barycentric p a b c (signedArea ℚ a b c) := by
  rw [barycentric_eq_planeWeights]
  refine h.averages.eq_planeWeights fun hzero => harea ?_
  rw [signedArea_rat, ← planeTurn_toPlane, hzero, zero_div]

theorem places_barycentric (p : Cell) (harea : signedArea ℚ a b c ≠ 0) :
    (barycentric p a b c (signedArea ℚ a b c)).Places a b c p := by
  have hturn : (turn a b c : ℚ) ≠ 0 := fun hzero => harea (by rw [signedArea_rat, hzero, zero_div])
  have htotal : (turn p b c + turn p c a + turn p a b : ℚ) = turn a b c := by
    exact_mod_cast turn_add p a b c
  have hx : (turn p b c * a.x + turn p c a * b.x + turn p a b * c.x : ℚ) = turn a b c * p.x := by
    exact_mod_cast turn_mul_x p a b c
  have hy : (turn p b c * a.y + turn p c a * b.y + turn p a b * c.y : ℚ) = turn a b c * p.y := by
    exact_mod_cast turn_mul_y p a b c
  rw [places_iff, barycentric_rat]
  field_simp
  exact ⟨htotal, hx, hy⟩

/-- What is affine in the plane is interpolated without error. -/
theorem Places.interpolate_affine (h : w.Places a b c p) (f : ℚ × ℚ →ᵃ[ℚ] ℚ) :
    w.interpolate (f a.toPlane) (f b.toPlane) (f c.toPlane) = f p.toPlane := by
  have hf (x : ℚ × ℚ) : f x = f.linear x + f 0 := congrFun f.decomp x
  calc w.first * f a.toPlane + w.second * f b.toPlane + w.third * f c.toPlane
      = f.linear (w.first • a.toPlane + w.second • b.toPlane + w.third • c.toPlane) +
          (w.first + w.second + w.third) * f 0 := by
        rw [hf a.toPlane, hf b.toPlane, hf c.toPlane, map_add, map_add, map_smul, map_smul,
          map_smul]
        simp only [smul_eq_mul]
        ring
    _ = f p.toPlane := by rw [h.mean, h.total, one_mul, ← hf]

end Weights

/-- In exact arithmetic the weights of a cell in a triangle that has an area are the only ones of
sum one that make the cell the mean of the corners. Interpolating with them gives every affine
function of the plane its value at the cell, which may lie inside the triangle or outside. -/
theorem barycentric_reproduces (p : Cell) {a b c : Cell} (harea : signedArea ℚ a b c ≠ 0) :
    let weights := barycentric p a b c (signedArea ℚ a b c)
    weights.Places a b c p ∧
      (∀ f : ℚ × ℚ →ᵃ[ℚ] ℚ,
        weights.interpolate (f a.toPlane) (f b.toPlane) (f c.toPlane) = f p.toPlane) ∧
      ∀ w : Weights ℚ, w.Places a b c p → w = weights := by
  have hplaces := Weights.places_barycentric p harea
  exact ⟨hplaces, hplaces.interpolate_affine, fun w hw => hw.eq_barycentric harea⟩

/-- A cell outside a triangle that is seen from behind. -/
theorem barycentric_reproduces_outside :
    let weights := barycentric ⟨60, 2⟩ ⟨17, 4⟩ ⟨23, 59⟩ ⟨55, 39⟩
      (signedArea ℚ ⟨17, 4⟩ ⟨23, 59⟩ ⟨55, 39⟩)
    signedArea ℚ ⟨17, 4⟩ ⟨23, 59⟩ ⟨55, 39⟩ ≠ 0 ∧
      weights.Places ⟨17, 4⟩ ⟨23, 59⟩ ⟨55, 39⟩ ⟨60, 2⟩ ∧
      ∀ w : Weights ℚ, w.Places ⟨17, 4⟩ ⟨23, 59⟩ ⟨55, 39⟩ ⟨60, 2⟩ → w = weights := by
  have harea : signedArea ℚ ⟨17, 4⟩ ⟨23, 59⟩ ⟨55, 39⟩ ≠ 0 := by decide +kernel
  obtain ⟨hplaces, -, hunique⟩ := barycentric_reproduces ⟨60, 2⟩ harea
  exact ⟨harea, hplaces, hunique⟩

end DepthRaster.Geometry
