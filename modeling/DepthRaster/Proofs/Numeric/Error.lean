import DepthRaster.Proofs.Numeric.Exact
/-!
# Rounding errors

A double is nearly a number when it is off by no more than a few roundings may make of that number.
Sums, products and quotients of numbers that are not negative are off by one rounding more than
their parts: nothing cancels, so what the parts are off by stays the same part of the result.
-/

namespace DepthRaster.Numeric

/-! ## Any number of roundings -/

/-- The part of a number that so many roundings may change it by. -/
def drift (k : ℕ) : ℚ := (1 + 1 / 2 ^ 52) ^ k - 1

theorem drift_zero : drift 0 = 0 := by rw [drift, pow_zero, sub_self]

theorem drift_succ (k : ℕ) : drift (k + 1) = drift k + (1 + drift k) / 2 ^ 52 := by
  rw [drift, drift, pow_succ]
  ring

theorem drift_mono {j k : ℕ} (h : j ≤ k) : drift j ≤ drift k :=
  sub_le_sub_right (pow_le_pow_right₀ (by norm_num) h) 1

theorem drift_le {k : ℕ} (h : k ≤ 8) : drift k ≤ 1 / 2 ^ 40 := by
  refine (drift_mono h).trans ?_
  norm_num [drift]

/-- Whether a number is zero, or positive and far enough from the ends of double precision to stay
so after a few roundings. -/
def Regular (q : ℚ) : Prop := q = 0 ∨ 2 ^ (-64 : ℤ) ≤ q ∧ q ≤ 2 ^ (64 : ℤ)

theorem Regular.nonneg {q : ℚ} (h : Regular q) : 0 ≤ q := by
  rcases h with rfl | ⟨hlow, -⟩
  · exact le_rfl
  · exact (zpow_pos two_pos _).le.trans hlow

section

variable {q r : ℚ} {k : ℕ}

theorem Regular.ordinary (hq : Regular q) (hk : k ≤ 8) (h : |r - q| ≤ drift k * q) :
    Ordinary r := by
  intro hne
  have hdrift := drift_le hk
  rcases hq with rfl | ⟨hlow, hhigh⟩
  · rw [mul_zero, sub_zero, abs_nonpos_iff] at h
    exact absurd h hne
  · have hpos : 0 < q := (zpow_pos two_pos _).trans_le hlow
    have hnear : |r - q| ≤ q / 2 := h.trans (by nlinarith)
    obtain ⟨hbelow, habove⟩ := abs_le.mp hnear
    rw [abs_of_pos (by linarith)]
    constructor
    · calc (2 : ℚ) ^ (-1000 : ℤ) ≤ 2 ^ (-64 - 1 : ℤ) := zpow_le_zpow_right₀ one_le_two (by norm_num)
        _ = 2 ^ (-64 : ℤ) / 2 := zpow_sub_one₀ two_ne_zero _
        _ ≤ q / 2 := by gcongr
        _ ≤ r := by linarith
    · calc r ≤ q * 2 := by linarith
        _ ≤ 2 ^ (64 : ℤ) * 2 := by gcongr
        _ = 2 ^ (64 + 1 : ℤ) := (zpow_add_one₀ two_ne_zero _).symm
        _ ≤ 2 ^ (1000 : ℤ) := zpow_le_zpow_right₀ one_le_two (by norm_num)

theorem abs_sub_le_drift_succ {t : ℚ} (hq : Regular q) (hk : k ≤ 8) (h : |r - q| ≤ drift k * q)
    (ht : Rounds r t) : |t - q| ≤ drift (k + 1) * q := by
  have hround := ht.error (hq.ordinary hk h)
  have hsize : |r| ≤ (1 + drift k) * q := by
    calc |r| = |(r - q) + q| := by rw [sub_add_cancel]
      _ ≤ |r - q| + |q| := abs_add_le _ _
      _ ≤ drift k * q + q := by rw [abs_of_nonneg hq.nonneg]; gcongr
      _ = (1 + drift k) * q := by ring
  calc |t - q| ≤ |t - r| + |r - q| := abs_sub_le t r q
    _ ≤ (1 + drift k) * q / 2 ^ 52 + drift k * q := by
        gcongr
        exact hround.trans (by gcongr)
    _ = drift (k + 1) * q := by rw [drift_succ]; ring

end

/-! ## Doubles -/

/-- Whether a double is a number up to so many roundings. -/
def IsNearly (x : Float) (q : ℚ) (k : ℕ) : Prop := ∃ r, IsExactly x r ∧ |r - q| ≤ drift k * q

namespace IsNearly

variable {x y : Float} {p q : ℚ} {k : ℕ}

theorem mono {j : ℕ} (hx : IsNearly x q j) (hq : Regular q) (h : j ≤ k) : IsNearly x q k := by
  obtain ⟨r, hr, hnear⟩ := hx
  exact ⟨r, hr, hnear.trans (mul_le_mul_of_nonneg_right (drift_mono h) hq.nonneg)⟩

theorem add (hx : IsNearly x p k) (hy : IsNearly y q k) (hsum : Regular (p + q)) (hk : k ≤ 8) :
    IsNearly (x + y) (p + q) (k + 1) := by
  obtain ⟨r, hr, hnear⟩ := hx
  obtain ⟨s, hs, hnear'⟩ := hy
  have hboth : |r + s - (p + q)| ≤ drift k * (p + q) := by
    calc |r + s - (p + q)| = |(r - p) + (s - q)| := by rw [add_sub_add_comm]
      _ ≤ |r - p| + |s - q| := abs_add_le _ _
      _ ≤ drift k * p + drift k * q := add_le_add hnear hnear'
      _ = drift k * (p + q) := (mul_add _ _ _).symm
  obtain ⟨t, ht⟩ := (hsum.ordinary hk hboth).exists_rounds
  exact ⟨t, hr.add_rounds hs ht, abs_sub_le_drift_succ hsum hk hboth ht⟩

theorem mul (hx : IsNearly x p k) (hy : IsExactly y q) (hq : 0 ≤ q) (hproduct : Regular (p * q))
    (hk : k ≤ 8) : IsNearly (x * y) (p * q) (k + 1) := by
  obtain ⟨r, hr, hnear⟩ := hx
  have hscaled : |r * q - p * q| ≤ drift k * (p * q) := by
    calc |r * q - p * q| = |r - p| * q := by rw [← sub_mul, abs_mul, abs_of_nonneg hq]
      _ ≤ drift k * p * q := mul_le_mul_of_nonneg_right hnear hq
      _ = drift k * (p * q) := mul_assoc _ _ _
  obtain ⟨t, ht⟩ := (hproduct.ordinary hk hscaled).exists_rounds
  exact ⟨t, hr.mul_rounds hy ht, abs_sub_le_drift_succ hproduct hk hscaled ht⟩

theorem div (hx : IsExactly x p) (hy : IsExactly y q) (hq : q ≠ 0) (hquotient : Regular (p / q)) :
    IsNearly (x / y) (p / q) 1 := by
  have hexact : |p / q - p / q| ≤ drift 0 * (p / q) := by
    rw [sub_self, abs_zero, drift_zero, zero_mul]
  obtain ⟨t, ht⟩ := (hquotient.ordinary (Nat.zero_le 8) hexact).exists_rounds
  exact ⟨t, hx.div_rounds hy hq ht, abs_sub_le_drift_succ hquotient (Nat.zero_le 8) hexact ht⟩

/-- Nearly a byte is less than a half off. -/
theorem exists_near (hx : IsNearly x q k) (hk : k ≤ 8) (hq : 0 ≤ q) (hq_le : q ≤ 255) :
    ∃ r, IsExactly x r ∧ |r - q| < 1 / 2 := by
  obtain ⟨r, hr, hnear⟩ := hx
  refine ⟨r, hr, hnear.trans_lt ?_⟩
  calc drift k * q ≤ 1 / 2 ^ 40 * 255 := mul_le_mul (drift_le hk) hq_le hq (by norm_num)
    _ < 1 / 2 := by norm_num

end IsNearly

end DepthRaster.Numeric
