import DepthRaster.Geometry.Area
import DepthRaster.Proofs.Numeric.Exact
/-!
# Turns

The turn of three cells is twice the signed area of their triangle, a whole number. The turns that a
cell makes with the edges of a triangle are its weights before the division by the turn of the
triangle. Double precision has the areas of cells of moderate size exactly, so its weights have the
signs of the turns.
-/

namespace DepthRaster.Geometry

open Numeric

def turn (p q r : Cell) : ℤ := (q.x - p.x) * (r.y - p.y) - (q.y - p.y) * (r.x - p.x)

/-! ## Turns as weights -/

theorem turn_add (p a b c : Cell) : turn p b c + turn p c a + turn p a b = turn a b c := by
  unfold turn
  ring

theorem turn_mul_x (p a b c : Cell) :
    turn p b c * a.x + turn p c a * b.x + turn p a b * c.x = turn a b c * p.x := by
  unfold turn
  ring

theorem turn_mul_y (p a b c : Cell) :
    turn p b c * a.y + turn p c a * b.y + turn p a b * c.y = turn a b c * p.y := by
  unfold turn
  ring

theorem turn_rotate (a b c : Cell) : turn b c a = turn a b c := by
  unfold turn
  ring

theorem turn_swap (a b c : Cell) : turn a c b = -turn a b c := by
  unfold turn
  ring

section

variable {R : Type} [CommRing R] [LinearOrder R] [IsStrictOrderedRing R] {u v w a b c z : R}

theorem le_of_weighted {low : R} (hu : 0 ≤ u) (hv : 0 ≤ v) (hw : 0 ≤ w) (htotal : 0 < u + v + w)
    (hz : u * a + v * b + w * c = (u + v + w) * z) (ha : low ≤ a) (hb : low ≤ b) (hc : low ≤ c) :
    low ≤ z := by
  refine le_of_mul_le_mul_left ?_ htotal
  calc (u + v + w) * low = u * low + v * low + w * low := by ring
    _ ≤ u * a + v * b + w * c := by gcongr
    _ = (u + v + w) * z := hz

theorem between_of_weighted (hu : 0 ≤ u) (hv : 0 ≤ v) (hw : 0 ≤ w) (htotal : 0 < u + v + w)
    (hz : u * a + v * b + w * c = (u + v + w) * z) :
    min (min a b) c ≤ z ∧ z ≤ max (max a b) c := by
  constructor
  · exact le_of_weighted hu hv hw htotal hz ((min_le_left _ c).trans (min_le_left a b))
      ((min_le_left _ c).trans (min_le_right a b)) (min_le_right _ c)
  · have hnegated : u * -a + v * -b + w * -c = (u + v + w) * -z := by linear_combination -hz
    have hle : -max (max a b) c ≤ -z :=
      le_of_weighted hu hv hw htotal hnegated
        (neg_le_neg ((le_max_left a b).trans (le_max_left _ c)))
        (neg_le_neg ((le_max_right a b).trans (le_max_left _ c))) (neg_le_neg (le_max_right _ c))
    exact neg_le_neg_iff.mp hle

end

/-! ## Cells of moderate size -/

/-- Whether the coordinates of a cell are so small that double precision has all areas exactly. -/
structure Cell.Moderate (p : Cell) : Prop where
  x : p.x.natAbs ≤ 2 ^ 24
  y : p.y.natAbs ≤ 2 ^ 24

theorem natAbs_product_le {j k : ℤ} (hj : j.natAbs ≤ 2 ^ 25) (hk : k.natAbs ≤ 2 ^ 25) :
    (j * k).natAbs ≤ 2 ^ 50 := by
  rw [Int.natAbs_mul]
  calc j.natAbs * k.natAbs ≤ 2 ^ 25 * 2 ^ 25 := Nat.mul_le_mul hj hk
    _ = 2 ^ 50 := by norm_num

section

variable {p q r : Cell}

/-- The part of the area that belongs to the edge from `p` to `q`. -/
theorem natAbs_strip_le (hp : p.Moderate) (hq : q.Moderate) :
    ((q.y - p.y) * (q.x + p.x)).natAbs ≤ 2 ^ 50 := by
  have := hp.x
  have := hp.y
  have := hq.x
  have := hq.y
  exact natAbs_product_le (by omega) (by omega)

theorem strips_eq_turn (p q r : Cell) :
    (q.y - p.y) * (q.x + p.x) + (r.y - q.y) * (r.x + q.x) + (p.y - r.y) * (p.x + r.x) =
      turn p q r := by
  unfold turn
  ring

theorem natAbs_turn_le (hp : p.Moderate) (hq : q.Moderate) (hr : r.Moderate) :
    (turn p q r).natAbs ≤ 3 * 2 ^ 50 := by
  have hpq := natAbs_strip_le hp hq
  have hqr := natAbs_strip_le hq hr
  have hrp := natAbs_strip_le hr hp
  rw [← strips_eq_turn]
  omega

theorem isExactly_strip (hp : p.Moderate) (hq : q.Moderate) :
    IsExactly ((Float.ofInt q.y - Float.ofInt p.y) * (Float.ofInt q.x + Float.ofInt p.x))
      (((q.y - p.y) * (q.x + p.x) : ℤ) : ℚ) := by
  have hpx := hp.x
  have hpy := hp.y
  have hqx := hq.x
  have hqy := hq.y
  have hrise : IsExactly (Float.ofInt q.y - Float.ofInt p.y) ((q.y - p.y : ℤ) : ℚ) := by
    rw [Int.cast_sub]
    exact (IsExactly.ofInt (by omega)).sub (.ofInt (by omega))
      (by exact_mod_cast representable_intCast (k := q.y - p.y) (by omega))
  have hsum : IsExactly (Float.ofInt q.x + Float.ofInt p.x) ((q.x + p.x : ℤ) : ℚ) := by
    rw [Int.cast_add]
    exact (IsExactly.ofInt (by omega)).add (.ofInt (by omega))
      (by exact_mod_cast representable_intCast (k := q.x + p.x) (by omega))
  have hproduct := natAbs_strip_le hp hq
  rw [Int.cast_mul]
  exact hrise.mul hsum (by exact_mod_cast representable_intCast (by omega))

/-- The signed area of cells of moderate size is exact. -/
theorem isExactly_signedArea (hp : p.Moderate) (hq : q.Moderate) (hr : r.Moderate) :
    IsExactly (signedArea Float p q r) (turn p q r / 2) := by
  have hpq := natAbs_strip_le hp hq
  have hqr := natAbs_strip_le hq hr
  have hrp := natAbs_strip_le hr hp
  have hturn := natAbs_turn_le hp hq hr
  have htwo : IsExactly (Float.ofInt 2) 2 := by exact_mod_cast IsExactly.ofInt (n := 2) (by decide)
  have hstrips := ((isExactly_strip hp hq).add (isExactly_strip hq hr)
    (by exact_mod_cast representable_intCast (by omega))).add (isExactly_strip hr hp)
    (by exact_mod_cast representable_intCast (by omega))
  rw [← Int.cast_add, ← Int.cast_add, strips_eq_turn] at hstrips
  exact hstrips.div htwo two_ne_zero (representable_half (by omega))

end

section

variable {p a b c : Cell}

theorem signedArea_lt_one_iff (ha : a.Moderate) (hb : b.Moderate) (hc : c.Moderate) :
    signedArea Float a b c < (Scalar.ofInt 1 : Float) ↔ turn a b c < 2 := by
  have hone : IsExactly (Scalar.ofInt 1 : Float) 1 := by
    exact_mod_cast IsExactly.ofInt (n := 1) (by decide)
  rw [(isExactly_signedArea ha hb hc).lt_iff hone, div_lt_one two_pos]
  exact_mod_cast Iff.rfl

theorem ratio_bounds {m n : ℤ} (hm : m ≠ 0) (hn : 0 < n) (hm_le : m.natAbs ≤ 2 ^ 52)
    (hn_le : n.natAbs ≤ 2 ^ 52) :
    2 ^ (-52 : ℤ) ≤ |(m / n : ℚ)| ∧ |(m / n : ℚ)| ≤ 2 ^ (52 : ℤ) := by
  have hpos : (0 : ℚ) < n := by exact_mod_cast hn
  have hm_one : (1 : ℚ) ≤ |(m : ℚ)| := by exact_mod_cast Int.one_le_abs hm
  have hm_pow : |(m : ℚ)| ≤ 2 ^ (52 : ℤ) := by
    rw [← Int.cast_abs, ← Nat.cast_natAbs]
    exact_mod_cast hm_le
  have hn_one : (1 : ℚ) ≤ n := by exact_mod_cast hn
  have hn_pow : (n : ℚ) ≤ 2 ^ (52 : ℤ) := by
    have : n ≤ (2 ^ 52 : ℕ) := by omega
    exact_mod_cast this
  rw [abs_div, abs_of_pos hpos, le_div_iff₀ hpos, div_le_iff₀ hpos]
  constructor
  · calc (2 : ℚ) ^ (-52 : ℤ) * n ≤ 2 ^ (-52 : ℤ) * 2 ^ (52 : ℤ) := by gcongr
      _ = 1 := by norm_num
      _ ≤ |(m : ℚ)| := hm_one
  · calc |(m : ℚ)| ≤ 2 ^ (52 : ℤ) * 1 := by rwa [mul_one]
      _ ≤ 2 ^ (52 : ℤ) * n := by gcongr

theorem ordinary_ratio {m n : ℤ} (hn : 0 < n) (hm_le : m.natAbs ≤ 2 ^ 52)
    (hn_le : n.natAbs ≤ 2 ^ 52) : Ordinary (m / n) := by
  intro hne
  have hm : m ≠ 0 := fun hzero => hne (by rw [hzero, Int.cast_zero, zero_div])
  obtain ⟨hlow, hhigh⟩ := ratio_bounds hm hn hm_le hn_le
  exact ⟨(zpow_le_zpow_right₀ one_le_two (by norm_num)).trans hlow,
    hhigh.trans (zpow_le_zpow_right₀ one_le_two (by norm_num))⟩

theorem zero_le_weight_iff {q r : Cell} (hp : p.Moderate) (hq : q.Moderate) (hr : r.Moderate)
    (ha : a.Moderate) (hb : b.Moderate) (hc : c.Moderate) (harea : 2 ≤ turn a b c) :
    (Scalar.ofInt 0 : Float) ≤ signedArea Float p q r / signedArea Float a b c ↔
      0 ≤ turn p q r := by
  have hpart := natAbs_turn_le hp hq hr
  have hwhole := natAbs_turn_le ha hb hc
  have hpos : (0 : ℚ) < turn a b c := by exact_mod_cast (by omega : 0 < turn a b c)
  have hsign : (0 : ℚ) ≤ turn p q r / 2 ↔ 0 ≤ turn p q r := by
    rw [le_div_iff₀ two_pos, zero_mul]
    exact_mod_cast Iff.rfl
  rw [← hsign]
  refine (isExactly_signedArea hp hq hr).zero_le_div_iff (isExactly_signedArea ha hb hc)
    (half_pos hpos) ?_
  rw [div_div_div_cancel_right₀ two_ne_zero]
  exact ordinary_ratio (by omega) (by omega) (by omega)

/-- A cell is inside a triangle when it is on no edge's outer side. -/
theorem inside_barycentric_iff (hp : p.Moderate) (ha : a.Moderate) (hb : b.Moderate)
    (hc : c.Moderate) (harea : 2 ≤ turn a b c) :
    (barycentric p a b c (signedArea Float a b c)).inside = true ↔
      0 ≤ turn p b c ∧ 0 ≤ turn p c a ∧ 0 ≤ turn p a b := by
  simp only [Weights.inside, barycentric, Bool.and_eq_true, decide_eq_true_eq, and_assoc,
    zero_le_weight_iff hp hb hc ha hb hc harea, zero_le_weight_iff hp hc ha ha hb hc harea,
    zero_le_weight_iff hp ha hb ha hb hc harea]

end

end DepthRaster.Geometry
