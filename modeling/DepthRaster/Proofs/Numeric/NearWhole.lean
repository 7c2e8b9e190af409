import DepthRaster.Proofs.Numeric.Exact
/-!
# Numbers hardly off whole ones

A product that should be a whole number is hardly off it once it is rounded, and it is hardly off a
whole number still when another one is added. The sum may come close to zero, where the error of a
rounding is not bounded by a part of the result; but then it is a multiple of a small unit, so it is
zero or far enough from it.
-/

namespace DepthRaster.Numeric

open Rounding

/-! ## Grains -/

/-- Whether a number is a multiple of a small unit. -/
def Grained (q : ℚ) : Prop := ∃ m : ℤ, q = m / 2 ^ 54

namespace Grained

variable {q : ℚ}

theorem intCast_add (h : Grained q) (p : ℤ) : Grained (p + q) := by
  obtain ⟨m, rfl⟩ := h
  refine ⟨p * 2 ^ 54 + m, ?_⟩
  rw [Int.cast_add, Int.cast_mul, Int.cast_pow, Int.cast_ofNat, add_div,
    mul_div_cancel_right₀ _ (pow_ne_zero 54 two_ne_zero)]

theorem le_abs (h : Grained q) (hq : q ≠ 0) : 1 / 2 ^ 54 ≤ |q| := by
  obtain ⟨m, rfl⟩ := h
  have hone : (1 : ℚ) ≤ |(m : ℚ)| := by
    exact_mod_cast Int.one_le_abs (Int.cast_ne_zero.mp (div_ne_zero_iff.mp hq).1)
  rw [abs_div, abs_of_pos (by norm_num : (0 : ℚ) < 2 ^ 54)]
  exact div_le_div_of_nonneg_right hone (by norm_num)

end Grained

theorem exponent_gt_of_half_le {n : ℕ} {e : ℤ} (hdouble : IsDouble n e)
    (h : (1 / 2 : ℚ) ≤ n * 2 ^ e) : -54 < e := by
  have hlt : (2 : ℚ) ^ (-1 : ℤ) < 2 ^ (53 + e) := by
    calc (2 : ℚ) ^ (-1 : ℤ) = 1 / 2 := by norm_num
      _ ≤ n * 2 ^ e := h
      _ < 2 ^ 53 * 2 ^ e := by
          gcongr
          exact_mod_cast hdouble.lt
      _ = 2 ^ (53 + e) := by rw [zpow_add₀ two_ne_zero]; norm_num
  have := (zpow_lt_zpow_iff_right₀ one_lt_two).mp hlt
  omega

/-- A number in double precision that is not small has no bits below the unit. -/
theorem Rounds.grained {q r : ℚ} (h : Rounds q r) (hr : 1 / 2 ≤ |r|) : Grained r := by
  cases h with
  | zero => norm_num at hr
  | @finite sign x n e hx hdouble hnear =>
      have hpos := mul_two_zpow_pos hdouble.pos e
      rw [abs_signed sign hpos.le] at hr
      have he := exponent_gt_of_half_le hdouble hr
      obtain ⟨j, hj⟩ := Int.eq_ofNat_of_zero_le (show 0 ≤ e + 54 by omega)
      have hvalue : (n * 2 ^ e : ℚ) = ((n * 2 ^ j : ℕ) : ℚ) / 2 ^ 54 := by
        rw [show e = j - 54 by omega, zpow_sub₀ two_ne_zero]
        push_cast
        norm_num [mul_div_assoc]
      refine ⟨sign.apply (n * 2 ^ j : ℕ), ?_⟩
      rw [hvalue, cast_apply]
      cases sign with
      | negative => exact (neg_div _ _).symm
      | positive => rfl

/-! ## Roundings -/

theorem ordinary_of_abs {q : ℚ} (hlow : q ≠ 0 → 1 / 2 ^ 54 ≤ |q|) (hhigh : |q| ≤ 2 ^ 54) :
    Ordinary q := by
  intro hne
  constructor
  · calc (2 : ℚ) ^ (-1000 : ℤ) ≤ 2 ^ (-54 : ℤ) := zpow_le_zpow_right₀ one_le_two (by norm_num)
      _ = 1 / 2 ^ 54 := by norm_num
      _ ≤ |q| := hlow hne
  · calc |q| ≤ 2 ^ 54 := hhigh
      _ = 2 ^ (54 : ℤ) := by norm_num
      _ ≤ 2 ^ (1000 : ℤ) := zpow_le_zpow_right₀ one_le_two (by norm_num)

theorem abs_intCast_le {j : ℤ} (h : j.natAbs ≤ 2 ^ 34) : |(j : ℚ)| ≤ 2 ^ 34 := by
  rw [← Int.cast_abs, Int.abs_eq_natAbs]
  exact_mod_cast h

/-- What is off a whole number by one rounding is hardly off it after another one. -/
theorem exists_rounds_near {j : ℤ} (hj : j.natAbs ≤ 2 ^ 34) {q : ℚ}
    (hq : |q - j| ≤ |(j : ℚ)| / 2 ^ 52) :
    ∃ r, Rounds q r ∧ |r - j| ≤ 1 / 2 ^ 16 ∧ Grained r := by
  have hj_abs := abs_intCast_le hj
  rcases eq_or_ne j 0 with rfl | hne
  · obtain rfl : q = 0 := by simpa using hq
    exact ⟨0, .zero, by norm_num, 0, by norm_num⟩
  · have hone : 1 ≤ |(j : ℚ)| := by exact_mod_cast Int.one_le_abs hne
    have hlow (r : ℚ) : |(j : ℚ)| - |r| ≤ |r - j| := by
      rw [abs_sub_comm]
      exact abs_sub_abs_le_abs_sub _ _
    have hhigh : |q| - |(j : ℚ)| ≤ |q - j| := abs_sub_abs_le_abs_sub _ _
    have hordinary : Ordinary q :=
      ordinary_of_abs (fun _ => by linarith [hlow q]) (by linarith)
    obtain ⟨r, hr⟩ := hordinary.exists_rounds
    have herror := hr.error hordinary
    have hnear : |r - j| ≤ 1 / 2 ^ 16 := by linarith [abs_sub_le r q (j : ℚ)]
    exact ⟨r, hr, hnear, hr.grained (by linarith [hlow r])⟩

/-- A whole number and what is hardly off another one come to less than a half off their sum. -/
theorem exists_rounds_add_near {p j : ℤ} (hp : p.natAbs ≤ 2 ^ 34) (hj : j.natAbs ≤ 2 ^ 34)
    {r : ℚ} (hr : |r - j| ≤ 1 / 2 ^ 16) (hgrained : Grained r) :
    ∃ t, Rounds (p + r) t ∧ |t - (p + j : ℤ)| < 1 / 2 := by
  have hp_abs := abs_intCast_le hp
  have hj_abs := abs_intCast_le hj
  have hsize : |p + r| ≤ 2 ^ 36 := by
    linarith [abs_add_le (p : ℚ) r, abs_sub_abs_le_abs_sub r (j : ℚ)]
  have hordinary : Ordinary (p + r) :=
    ordinary_of_abs (hgrained.intCast_add p).le_abs (by linarith)
  obtain ⟨t, ht⟩ := hordinary.exists_rounds
  have herror := ht.error hordinary
  have hmiddle : p + r - (p + j : ℤ) = r - j := by
    rw [Int.cast_add, add_sub_add_left_eq_sub]
  have hboth := abs_sub_le t (p + r) ((p + j : ℤ) : ℚ)
  rw [hmiddle] at hboth
  exact ⟨t, ht, by linarith⟩

end DepthRaster.Numeric
