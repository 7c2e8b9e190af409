import DepthRaster.Proofs.Geometry.Weights
import DepthRaster.Proofs.Numeric.Error
/-!
# Interpolated bytes

Bytes at the corners of a triangle are interpolated to a mean whose shares are turns. Double
precision rounds each weight, each product and each sum, which cannot change such a mean by much.
-/

namespace DepthRaster.Geometry

open Numeric

/-- The mean of three numbers at the corners, weighted by the turns of the cell with the opposite
edges. -/
def turnMean (p a b c : Cell) (i j k : ℤ) : ℚ :=
  (turn p b c * i + turn p c a * j + turn p a b * k : ℤ) / turn a b c

theorem interpolate_rat (p a b c : Cell) (i j k : ℤ) :
    (barycentric p a b c (signedArea ℚ a b c)).interpolate (Scalar.ofInt i) (Scalar.ofInt j)
      (Scalar.ofInt k) = turnMean p a b c i j k := by
  rw [barycentric_rat, turnMean]
  push_cast
  rw [add_div, add_div, ← div_mul_eq_mul_div, ← div_mul_eq_mul_div, ← div_mul_eq_mul_div]
  rfl

variable {p a b c : Cell} {i j k : ℤ}

/-- The mean lies between the least and the greatest of the numbers, as long as the cell is on the
outer side of no edge. -/
theorem turnMean_mem (harea : 0 < turn a b c) (ha : 0 ≤ turn p b c) (hb : 0 ≤ turn p c a)
    (hc : 0 ≤ turn p a b) :
    (min (min i j) k : ℤ) ≤ turnMean p a b c i j k ∧
      turnMean p a b c i j k ≤ (max (max i j) k : ℤ) := by
  have hpos : (0 : ℚ) < turn a b c := by exact_mod_cast harea
  have htotal : (turn p b c + turn p c a + turn p a b : ℚ) = turn a b c := by
    exact_mod_cast turn_add p a b c
  push_cast
  refine between_of_weighted (u := (turn p b c : ℚ)) (v := turn p c a) (w := turn p a b)
    (by exact_mod_cast ha) (by exact_mod_cast hb) (by exact_mod_cast hc) (htotal ▸ hpos) ?_
  rw [htotal, turnMean, mul_div_cancel₀ _ hpos.ne']
  push_cast
  rfl

theorem turnMean_corner (harea : 0 < turn a b c) (i j k : ℤ) : turnMean a a b c i j k = i := by
  have hpos : (0 : ℚ) < turn a b c := by exact_mod_cast harea
  have hsecond : turn a c a = 0 := by unfold turn; ring
  have hthird : turn a a b = 0 := by unfold turn; ring
  rw [turnMean, hsecond, hthird, zero_mul, zero_mul, add_zero, add_zero, Int.cast_mul,
    mul_div_cancel_left₀ _ hpos.ne']

theorem turnMean_rotate (p a b c : Cell) (i j k : ℤ) :
    turnMean p b c a j k i = turnMean p a b c i j k := by
  rw [turnMean, turnMean, turn_rotate a b c, add_rotate, add_rotate]

/-! ## In double precision -/

theorem regular_ratio {m n : ℤ} (hm : 0 ≤ m) (hm_le : m ≤ 2 ^ 64) (hn : 0 < n)
    (hn_le : n ≤ 2 ^ 64) : Regular (m / n) := by
  have hn_pos : (0 : ℚ) < n := by exact_mod_cast hn
  rcases hm.eq_or_lt with rfl | hm_pos
  · exact .inl (by rw [Int.cast_zero, zero_div])
  · have hn_one : (1 : ℚ) ≤ n := by exact_mod_cast hn
    have hm_one : (1 : ℚ) ≤ m := by exact_mod_cast hm_pos
    have hn_le' : (n : ℚ) ≤ 2 ^ (64 : ℤ) := by exact_mod_cast hn_le
    have hm_le' : (m : ℚ) ≤ 2 ^ (64 : ℤ) := by exact_mod_cast hm_le
    refine .inr ⟨?_, ?_⟩
    · calc (2 : ℚ) ^ (-64 : ℤ) = 1 / 2 ^ (64 : ℤ) := by rw [zpow_neg, one_div]
        _ ≤ m / n := by gcongr
    · calc (m / n : ℚ) ≤ 2 ^ (64 : ℤ) / 1 := by gcongr
        _ = 2 ^ (64 : ℤ) := div_one _

theorem isNearly_add_ratio {x y : Float} {m m' n : ℤ} {k : ℕ} (hx : IsNearly x (m / n) k)
    (hy : IsNearly y (m' / n) k) (hk : k ≤ 8) (hsum : 0 ≤ m + m') (hsum_le : m + m' ≤ 2 ^ 64)
    (hn : 0 < n) (hn_le : n ≤ 2 ^ 64) : IsNearly (x + y) ((m + m' : ℤ) / n) (k + 1) := by
  have hregular := regular_ratio hsum hsum_le hn hn_le
  rw [Int.cast_add, add_div] at hregular ⊢
  exact hx.add hy hregular hk

section

variable (hp : p.Moderate) (ha : a.Moderate) (hb : b.Moderate) (hc : c.Moderate)
  (harea : 0 < turn a b c)

theorem turn_mul_le {q r : Cell} (hp : p.Moderate) (hq : q.Moderate) (hr : r.Moderate) (hi : 0 ≤ i)
    (hi_le : i ≤ 255) : turn p q r * i ≤ 2 ^ 60 := by
  have hturn := natAbs_turn_le hp hq hr
  calc turn p q r * i ≤ (3 * 2 ^ 50) * 255 := by gcongr; omega
    _ ≤ 2 ^ 60 := by norm_num

include hp ha hb hc harea

theorem isNearly_weight {q r : Cell} (hq : q.Moderate) (hr : r.Moderate) (hturn : 0 ≤ turn p q r) :
    IsNearly (signedArea Float p q r / signedArea Float a b c) (turn p q r / turn a b c) 1 := by
  have hpart := natAbs_turn_le hp hq hr
  have hwhole := natAbs_turn_le ha hb hc
  have hpos : (0 : ℚ) < turn a b c := by exact_mod_cast harea
  have hratio : (turn p q r / 2 / (turn a b c / 2) : ℚ) = turn p q r / turn a b c :=
    div_div_div_cancel_right₀ two_ne_zero _ _
  rw [← hratio]
  refine IsNearly.div (isExactly_signedArea hp hq hr) (isExactly_signedArea ha hb hc)
    (half_pos hpos).ne' ?_
  rw [hratio]
  exact regular_ratio hturn (by omega) harea (by omega)

theorem isNearly_share {q r : Cell} (hq : q.Moderate) (hr : r.Moderate) (hturn : 0 ≤ turn p q r)
    (hi : 0 ≤ i) (hi_le : i ≤ 255) :
    IsNearly (signedArea Float p q r / signedArea Float a b c * Scalar.ofInt i)
      ((turn p q r * i : ℤ) / turn a b c) 2 := by
  have hwhole := natAbs_turn_le ha hb hc
  have hproduct := turn_mul_le hp hq hr hi hi_le
  have hexact : IsExactly (Scalar.ofInt i : Float) i := IsExactly.ofInt (by omega)
  have hregular : Regular ((turn p q r * i : ℤ) / turn a b c) :=
    regular_ratio (by positivity) (by omega) harea (by omega)
  rw [Int.cast_mul, ← div_mul_eq_mul_div] at hregular ⊢
  exact (isNearly_weight hp ha hb hc harea hq hr hturn).mul hexact (by exact_mod_cast hi) hregular
    (by decide)

/-- An interpolated byte is off by four roundings. -/
theorem isNearly_interpolate (hfirst : 0 ≤ turn p b c) (hsecond : 0 ≤ turn p c a)
    (hthird : 0 ≤ turn p a b) (hi : 0 ≤ i) (hi_le : i ≤ 255) (hj : 0 ≤ j) (hj_le : j ≤ 255)
    (hk : 0 ≤ k) (hk_le : k ≤ 255) :
    IsNearly ((barycentric p a b c (signedArea Float a b c)).interpolate (Scalar.ofInt i)
      (Scalar.ofInt j) (Scalar.ofInt k)) (turnMean p a b c i j k) 4 := by
  have hwhole := natAbs_turn_le ha hb hc
  have hi_share := isNearly_share hp ha hb hc harea hb hc hfirst hi hi_le
  have hj_share := isNearly_share hp ha hb hc harea hc ha hsecond hj hj_le
  have hk_share := isNearly_share hp ha hb hc harea ha hb hthird hk hk_le
  have hi_product := turn_mul_le hp hb hc hi hi_le
  have hj_product := turn_mul_le hp hc ha hj hj_le
  have hk_product := turn_mul_le hp ha hb hk hk_le
  have hi_nonneg : 0 ≤ turn p b c * i := mul_nonneg hfirst hi
  have hj_nonneg : 0 ≤ turn p c a * j := mul_nonneg hsecond hj
  have hk_nonneg : 0 ≤ turn p a b * k := mul_nonneg hthird hk
  have hboth := isNearly_add_ratio hi_share hj_share (by decide) (by omega) (by omega) harea
    (by omega)
  have hk_later := hk_share.mono (regular_ratio hk_nonneg (by omega) harea (by omega))
    (show 2 ≤ 3 by decide)
  exact isNearly_add_ratio hboth hk_later (by decide) (by omega) (by omega) harea (by omega)

end

end DepthRaster.Geometry
