import DepthRaster.Numeric.Shortest
import DepthRaster.Proofs.Numeric.Decimals
/-!
# Shortest decimals

The decimal that is written for a double rounds to it. One is found, since the finest grid that is
tried has a point between the double and the upper end of what rounds to it.
-/

namespace DepthRaster.Numeric.Shortest

open Rounding (IsDouble Near lowerEnd)

/-! ## Fractions -/

def Fraction.value (q : Fraction) : ℚ := q.numerator / q.denominator

theorem Fraction.denominator_ofBinary (m : ℕ) (k : ℤ) : 0 < (ofBinary m k).denominator := by
  cases k with
  | ofNat k => exact Nat.one_pos
  | negSucc k =>
      rw [ofBinary, Nat.shiftLeft_eq, Nat.one_mul]
      exact Nat.two_pow_pos (k + 1)

theorem Fraction.value_ofBinary (m : ℕ) (k : ℤ) : (ofBinary m k).value = m * 2 ^ k := by
  cases k with
  | ofNat k =>
      simp only [value, ofBinary, Nat.shiftLeft_eq, Int.ofNat_eq_natCast, zpow_natCast]
      push_cast
      exact div_one _
  | negSucc k =>
      simp only [value, ofBinary, Nat.shiftLeft_eq, Nat.one_mul, zpow_negSucc]
      push_cast
      exact div_eq_mul_inv _ _

theorem Fraction.denominator_scaleDown {q : Fraction} (hq : 0 < q.denominator) (p : ℤ) :
    0 < (q.scaleDown p).denominator := by
  cases p with
  | ofNat k => exact Nat.mul_pos hq (Nat.pow_pos (by decide))
  | negSucc k => exact hq

theorem Fraction.value_scaleDown (q : Fraction) (p : ℤ) :
    (q.scaleDown p).value = q.value / 10 ^ p := by
  cases p with
  | ofNat k =>
      simp only [value, scaleDown, Nat.pow_eq, Int.ofNat_eq_natCast, zpow_natCast]
      push_cast
      exact (div_div _ _ _).symm
  | negSucc k =>
      simp only [value, scaleDown, Nat.pow_eq, zpow_negSucc, div_inv_eq_mul]
      push_cast
      exact mul_div_right_comm _ _ _

section

variable (m c : ℕ) (k p : ℤ)

theorem denominator_pos : (0 : ℚ) < ((Fraction.ofBinary m k).scaleDown p).denominator := by
  exact_mod_cast Fraction.denominator_scaleDown (Fraction.denominator_ofBinary m k) p

theorem numerator_eq : (((Fraction.ofBinary m k).scaleDown p).numerator : ℚ) =
    m * 2 ^ k / 10 ^ p * ((Fraction.ofBinary m k).scaleDown p).denominator := by
  rw [← div_eq_iff (denominator_pos m k p).ne', ← Fraction.value_ofBinary,
    ← Fraction.value_scaleDown, Fraction.value]

theorem numerator_le_iff :
    ((Fraction.ofBinary m k).scaleDown p).numerator ≤
        c * ((Fraction.ofBinary m k).scaleDown p).denominator ↔
      (m : ℚ) * 2 ^ k ≤ c * 10 ^ p := by
  rw [← div_le_iff₀ (zpow_pos (by norm_num) p), ← mul_le_mul_iff_left₀ (denominator_pos m k p),
    ← numerator_eq]
  exact_mod_cast Iff.rfl

theorem le_numerator_iff :
    c * ((Fraction.ofBinary m k).scaleDown p).denominator ≤
        ((Fraction.ofBinary m k).scaleDown p).numerator ↔
      (c : ℚ) * 10 ^ p ≤ m * 2 ^ k := by
  rw [← le_div_iff₀ (zpow_pos (by norm_num) p), ← mul_le_mul_iff_left₀ (denominator_pos m k p),
    ← numerator_eq]
  exact_mod_cast Iff.rfl

end

/-! ## Points of a grid -/

section

variable {n c : ℕ} {e p : ℤ}

theorem lower_around (hn : 0 < n) :
    ((Interval.around n e).lower : ℚ) * 2 ^ (e - 2) = lowerEnd n e * 2 ^ e := by
  have hpow : (2 : ℚ) ^ e = 4 * 2 ^ (e - 2) := by
    rw [zpow_sub₀ two_ne_zero]
    norm_num
    ring
  simp only [Interval.around, lowerEnd, Nat.shiftLeft_eq, one_mul]
  split_ifs with hpower
  · rw [Nat.cast_sub (by omega), hpow]
    push_cast
    ring
  · rw [Nat.cast_sub (by omega), hpow]
    push_cast
    ring

theorem upper_around :
    ((Interval.around n e).upper : ℚ) * 2 ^ (e - 2) = (n + 1 / 2) * 2 ^ e := by
  have hpow : (2 : ℚ) ^ e = 4 * 2 ^ (e - 2) := by
    rw [zpow_sub₀ two_ne_zero]
    norm_num
    ring
  simp only [Interval.around]
  rw [hpow]
  push_cast
  ring

theorem near_of_contains (hn : 0 < n) (h : (Interval.around n e).contains p c = true) :
    Near n e (c * 10 ^ p) := by
  have hpos : (0 : ℚ) < 2 ^ e := zpow_pos two_pos e
  have hclosed : (Interval.around n e).closed = decide (n % 2 = 0) := rfl
  have hexponent : (Interval.around n e).exponent = e - 2 := rfl
  rw [Near, lt_div_iff₀ hpos, div_lt_iff₀ hpos, le_div_iff₀ hpos, div_le_iff₀ hpos,
    ← lower_around hn, ← upper_around]
  simp only [Interval.contains, hclosed, hexponent, decide_eq_true_eq] at h
  split_ifs at h with heven
  · rw [Bool.and_eq_true, decide_eq_true_eq, decide_eq_true_eq, numerator_le_iff,
      le_numerator_iff] at h
    exact .inr ⟨heven, h⟩
  · rw [Bool.and_eq_true, decide_eq_true_eq, decide_eq_true_eq, ← not_le, ← not_le,
      numerator_le_iff, le_numerator_iff, not_le, not_le] at h
    exact .inl h

theorem contains_of_eq_some {i : Interval} {a b : ℕ} {d : Decimal}
    (h : (if i.contains p a then some (Decimal.mk a p)
      else if i.contains p b then some (Decimal.mk b p) else none) = some d) :
    d.exponent = p ∧ i.contains p d.digits = true := by
  split_ifs at h with ha hb
  · obtain rfl := Option.some.inj h
    exact ⟨rfl, ha⟩
  · obtain rfl := Option.some.inj h
    exact ⟨rfl, hb⟩

theorem gridPoint_eq_some {i : Interval} {d : Decimal} (h : i.gridPoint p = some d) :
    d.exponent = p ∧ i.contains p d.digits = true :=
  contains_of_eq_some h

theorem isSome_gridPoint {i : Interval} {value : Fraction}
    (hvalue : (Fraction.ofBinary i.center i.exponent).scaleDown p = value)
    (h : i.contains p (value.numerator / value.denominator + 1) = true) :
    (i.gridPoint p).isSome = true := by
  unfold Interval.gridPoint
  dsimp only
  rw [hvalue]
  by_cases hhalf : value.denominator ≤ 2 * (value.numerator % value.denominator)
  · rw [if_pos hhalf, if_pos h]
    rfl
  · rw [if_neg hhalf, if_neg hhalf]
    split_ifs
    · rfl
    · rfl

/-! ## The finest grid -/

/-- The next point of a fine grid above a double rounds to it. -/
theorem contains_next (hn : 0 < n) (hfine : (10 : ℚ) ^ p < 2 ^ (e - 1)) {value : Fraction}
    (hvalue : (Fraction.ofBinary (4 * n) (e - 2)).scaleDown p = value) :
    (Interval.around n e).contains p (value.numerator / value.denominator + 1) = true := by
  have hpos : 0 < value.denominator :=
    hvalue ▸ Fraction.denominator_scaleDown (Fraction.denominator_ofBinary _ _) p
  have hhalf : (2 : ℚ) ^ (e - 1) = 2 * 2 ^ (e - 2) := by
    rw [← zpow_one_add₀ two_ne_zero]
    congr 1
    omega
  have hquarter : (0 : ℚ) < 2 ^ (e - 2) := zpow_pos two_pos (e - 2)
  have hfloor : ((value.numerator / value.denominator : ℕ) : ℚ) * 10 ^ p ≤
      (4 * n : ℕ) * 2 ^ (e - 2) := by
    rw [← le_numerator_iff, hvalue]
    exact Nat.div_mul_le_self value.numerator value.denominator
  have hnext : ((4 * n : ℕ) : ℚ) * 2 ^ (e - 2) <
      (value.numerator / value.denominator + 1 : ℕ) * 10 ^ p := by
    rw [← not_le, ← le_numerator_iff, hvalue, not_le]
    exact (Nat.div_lt_iff_lt_mul hpos).mp (Nat.lt_succ_self _)
  generalize value.numerator / value.denominator = floor at hfloor hnext ⊢
  have hlower : ((Interval.around n e).lower : ℚ) * 2 ^ (e - 2) < (floor + 1 : ℕ) * 10 ^ p := by
    have hlt : (Interval.around n e).lower < 4 * n := by
      simp only [Interval.around]
      split_ifs <;> omega
    refine lt_trans (mul_lt_mul_of_pos_right ?_ hquarter) hnext
    exact_mod_cast hlt
  have hupper : ((floor + 1 : ℕ) : ℚ) * 10 ^ p < (Interval.around n e).upper * 2 ^ (e - 2) := by
    have hupper : (Interval.around n e).upper = 4 * n + 2 := rfl
    rw [hupper]
    push_cast at hfloor ⊢
    linarith
  have hexponent : (Interval.around n e).exponent = e - 2 := rfl
  simp only [Interval.contains, hexponent]
  split_ifs
  · rw [Bool.and_eq_true, decide_eq_true_eq, decide_eq_true_eq, numerator_le_iff,
      le_numerator_iff]
    exact ⟨hlower.le, hupper.le⟩
  · rw [Bool.and_eq_true, decide_eq_true_eq, decide_eq_true_eq, ← not_le, ← not_le,
      numerator_le_iff, le_numerator_iff, not_le, not_le]
    exact ⟨hlower, hupper⟩

/-- A thousand is a little less than the tenth power of two. -/
theorem zpow_lt_zpow_of_nonneg {q a : ℤ} (ha : 0 ≤ a) (h : 10 * q < 3 * a) :
    (10 : ℚ) ^ q < 2 ^ a := by
  refine lt_of_pow_lt_pow_left₀ 10 (by positivity) ?_
  calc ((10 : ℚ) ^ q) ^ 10 = 10 ^ (10 * q) := by rw [← zpow_natCast, ← zpow_mul, mul_comm]; rfl
    _ < 10 ^ (3 * a) := zpow_lt_zpow_right₀ (by norm_num) h
    _ = (10 ^ 3) ^ a := by rw [zpow_mul, zpow_ofNat]
    _ ≤ (2 ^ 10) ^ a := zpow_le_zpow_left₀ ha (by norm_num) (by norm_num)
    _ = (2 ^ a) ^ 10 := by rw [← zpow_natCast, ← zpow_natCast, ← zpow_mul, ← zpow_mul, mul_comm]

/-- The 93rd power of two is a little less than the 28th power of ten. -/
theorem zpow_lt_zpow_of_nonpos {q a : ℤ} (ha : a ≤ 0) (h : 93 * q < 28 * a) :
    (10 : ℚ) ^ q < 2 ^ a := by
  have hbase : ((10 : ℚ) ^ 28) ^ a ≤ (2 ^ 93) ^ a := by
    have hpow : ((2 : ℚ) ^ 93) ^ (-a) ≤ (10 ^ 28) ^ (-a) :=
      zpow_le_zpow_left₀ (neg_nonneg.mpr ha) (by norm_num) (by norm_num)
    rw [zpow_neg, zpow_neg] at hpow
    exact (inv_le_inv₀ (by positivity) (by positivity)).mp hpow
  refine lt_of_pow_lt_pow_left₀ 93 (by positivity) ?_
  calc ((10 : ℚ) ^ q) ^ 93 = 10 ^ (93 * q) := by rw [← zpow_natCast, ← zpow_mul, mul_comm]; rfl
    _ < 10 ^ (28 * a) := zpow_lt_zpow_right₀ (by norm_num) h
    _ = (10 ^ 28) ^ a := by rw [zpow_mul, zpow_ofNat]
    _ ≤ (2 ^ 93) ^ a := hbase
    _ = (2 ^ a) ^ 93 := by rw [← zpow_natCast, ← zpow_natCast, ← zpow_mul, ← zpow_mul, mul_comm]

theorem fine_of_topExponent (hdouble : IsDouble n e) :
    (10 : ℚ) ^ (topExponent (n.log2 + 1 + e) - 24) < 2 ^ (e - 1) := by
  have hlog : n.log2 < 53 := (Nat.log2_lt hdouble.pos.ne').mpr hdouble.lt
  have hleast := hdouble.least
  have hgreatest := hdouble.greatest
  rw [topExponent]
  rcases le_total 0 (e - 1) with hsign | hsign
  · exact zpow_lt_zpow_of_nonneg hsign (by omega)
  · exact zpow_lt_zpow_of_nonpos hsign (by omega)

/-- The decimal of a double rounds to it. -/
theorem near_decimal (hdouble : IsDouble n e) :
    Near n e ((decimal n e).digits * 10 ^ (decimal n e).exponent) := by
  have hlast := isSome_gridPoint rfl
    (contains_next hdouble.pos (fine_of_topExponent hdouble) rfl)
  obtain ⟨d, hd⟩ : ∃ d, ((List.range 25).findSome? fun step : ℕ =>
      (Interval.around n e).gridPoint (topExponent (n.log2 + 1 + e) - step)) = some d := by
    rw [← Option.isSome_iff_exists, List.findSome?_isSome_iff]
    exact ⟨24, List.mem_range.mpr (by decide), hlast⟩
  obtain ⟨step, -, hgrid⟩ := List.exists_of_findSome?_eq_some hd
  obtain ⟨hexponent, hcontains⟩ := gridPoint_eq_some hgrid
  have hdecimal : decimal n e = d := by
    simp only [decimal, hd, Option.getD_some]
  rw [hdecimal, hexponent]
  exact near_of_contains hdouble.pos hcontains

end

end DepthRaster.Numeric.Shortest
