import DepthRaster.Proofs.Numeric.Exact
/-!
# Nearest whole numbers

A double is rounded to the whole number that the rational number it is exactly is rounded to. A
number within less than a half of another one is not rounded past the whole bounds of that one.
-/

namespace DepthRaster.Numeric

open Float.Model

/-! ## Rational numbers -/

theorem roundRational_of_nonneg {q : ℚ} (h : 0 ≤ q) : roundRational q = ⌊q + 1 / 2⌋ :=
  if_neg h.not_gt

theorem roundRational_neg_of_pos {q : ℚ} (h : 0 < q) : roundRational (-q) = -⌊q + 1 / 2⌋ := by
  rw [roundRational, if_pos (neg_neg_of_pos h), neg_neg]
  rfl

theorem le_roundRational {m : ℤ} {q : ℚ} (h : m - 1 / 2 < q) : m ≤ roundRational q := by
  rcases le_or_gt 0 q with hq | hq
  · rw [roundRational_of_nonneg hq, Int.le_floor]
    linarith
  · rw [← neg_neg q, roundRational_neg_of_pos (neg_pos.mpr hq), le_neg, ← Int.lt_add_one_iff,
      Int.floor_lt]
    push_cast
    linarith

theorem roundRational_le {m : ℤ} {q : ℚ} (h : q < m + 1 / 2) : roundRational q ≤ m := by
  rcases le_or_gt 0 q with hq | hq
  · rw [roundRational_of_nonneg hq, ← Int.lt_add_one_iff, Int.floor_lt]
    push_cast
    linarith
  · rw [← neg_neg q, roundRational_neg_of_pos (neg_pos.mpr hq), neg_le, Int.le_floor]
    push_cast
    linarith

theorem roundRational_mono {q r : ℚ} (h : q ≤ r) : roundRational q ≤ roundRational r := by
  rcases le_or_gt 0 q with hq | hq
  · rw [roundRational_of_nonneg hq, roundRational_of_nonneg (hq.trans h)]
    exact Int.floor_mono (by gcongr)
  rcases le_or_gt 0 r with hr | hr
  · calc roundRational q ≤ 0 := roundRational_le (by push_cast; linarith)
      _ ≤ roundRational r := le_roundRational (by push_cast; linarith)
  · rw [← neg_neg q, ← neg_neg r, roundRational_neg_of_pos (neg_pos.mpr hq),
      roundRational_neg_of_pos (neg_pos.mpr hr), neg_le_neg_iff]
    exact Int.floor_mono (by gcongr)

theorem abs_roundRational_sub_le (q : ℚ) : |(roundRational q : ℚ) - q| ≤ 1 / 2 := by
  rcases le_or_gt 0 q with hq | hq
  · rw [roundRational_of_nonneg hq, abs_le]
    constructor
    · linarith [Int.lt_floor_add_one (q + 1 / 2)]
    · linarith [Int.floor_le (q + 1 / 2)]
  · obtain ⟨r, rfl⟩ : ∃ r, q = -r := ⟨-q, (neg_neg q).symm⟩
    rw [roundRational_neg_of_pos (neg_lt_zero.mp hq), Int.cast_neg, abs_le]
    constructor
    · linarith [Int.floor_le (r + 1 / 2)]
    · linarith [Int.lt_floor_add_one (r + 1 / 2)]

theorem roundRational_intCast (m : ℤ) : roundRational m = m :=
  le_antisymm (roundRational_le (by linarith)) (le_roundRational (by linarith))

theorem abs_roundRational_sub_roundRational_le {q r : ℚ} (h : |q - r| < 1) :
    |roundRational q - roundRational r| ≤ 1 := by
  have hlt : |(roundRational q - roundRational r : ℚ)| < 2 := by
    calc |(roundRational q - roundRational r : ℚ)|
        = |(roundRational q - q) + (q - r) + (r - roundRational r)| := by ring_nf
      _ ≤ |roundRational q - q| + |q - r| + |r - roundRational r| := abs_add_three _ _ _
      _ < 1 / 2 + 1 + 1 / 2 := by
          have hq := abs_roundRational_sub_le q
          have hr := abs_roundRational_sub_le r
          rw [abs_sub_comm] at hr
          linarith
      _ = 2 := by norm_num
  have : |roundRational q - roundRational r| < 2 := by exact_mod_cast hlt
  omega

theorem roundWithin_eq {low high : ℤ} {q : ℚ} (hlow : low ≤ q) (hhigh : q ≤ high) :
    Scalar.roundWithin low high q = roundRational q := by
  have hge : low ≤ roundRational q := le_roundRational (by linarith)
  have hle : roundRational q ≤ high := roundRational_le (by linarith)
  change max low (min high (roundRational q)) = roundRational q
  omega

theorem roundWithin_rat_mem {low high : ℤ} (h : low ≤ high) (q : ℚ) :
    low ≤ Scalar.roundWithin low high q ∧ Scalar.roundWithin low high q ≤ high := by
  change low ≤ max low (min high (roundRational q)) ∧ max low (min high (roundRational q)) ≤ high
  omega

theorem roundWithin_mono (low high : ℤ) {q r : ℚ} (h : q ≤ r) :
    Scalar.roundWithin low high q ≤ Scalar.roundWithin low high r :=
  max_le_max_left low (min_le_min_left high (roundRational_mono h))

/-- Rounding and cutting off between two bounds keeps what is near a number between two others. -/
theorem roundWithin_mem {low high m n : ℤ} {q r : ℚ} (hlow : low ≤ m) (hhigh : n ≤ high)
    (hm : m ≤ q) (hn : q ≤ n) (hnear : |r - q| < 1 / 2) :
    m ≤ Scalar.roundWithin low high r ∧ Scalar.roundWithin low high r ≤ n := by
  obtain ⟨hbelow, habove⟩ := abs_lt.mp hnear
  have hmn : m ≤ n := by exact_mod_cast hm.trans hn
  have hge : m ≤ roundRational r := le_roundRational (by linarith)
  have hle : roundRational r ≤ n := roundRational_le (by linarith)
  change m ≤ max low (min high (roundRational r)) ∧ max low (min high (roundRational r)) ≤ n
  omega

theorem roundWithin_eq_of_near {low high m : ℤ} {q : ℚ} (hlow : low ≤ m) (hhigh : m ≤ high)
    (hnear : |q - m| < 1 / 2) : Scalar.roundWithin low high q = m := by
  obtain ⟨hge, hle⟩ := roundWithin_mem hlow hhigh le_rfl le_rfl hnear
  exact le_antisymm hle hge

/-! ## Doubles -/

theorem nearest_eq (n : ℕ) (e : ℤ) :
    (Binary.nearest n e : ℤ) = ⌊(n * 2 ^ e : ℚ) + 1 / 2⌋ := by
  cases e with
  | ofNat k =>
      have hfloor : ⌊(n * 2 ^ k : ℕ) + (1 / 2 : ℚ)⌋ = ((n * 2 ^ k : ℕ) : ℤ) := by
        rw [Int.floor_eq_iff]
        push_cast
        constructor <;> linarith
      rw [Binary.nearest, Nat.shiftLeft_eq, ← hfloor, Int.ofNat_eq_natCast, zpow_natCast]
      push_cast
      rfl
  | negSucc k =>
      have hpos : (0 : ℚ) < 2 ^ (k + 1) := by positivity
      have hvalue : (n * 2 ^ Int.negSucc k : ℚ) + 1 / 2 =
          ((n + 2 ^ k : ℕ) : ℚ) / (2 ^ (k + 1) : ℕ) := by
        rw [zpow_negSucc]
        push_cast
        field_simp
        ring
      have hshift : ((n >>> k) + 1) >>> 1 = (n + 2 ^ k) / 2 ^ (k + 1) := by
        rw [Nat.shiftRight_eq_div_pow, Nat.shiftRight_eq_div_pow, pow_one, pow_succ,
          ← Nat.div_div_eq_div_mul, Nat.add_div_right n (Nat.two_pow_pos k)]
      rw [Binary.nearest, hshift, hvalue, Rat.floor_natCast_div_natCast, Int.natCast_ediv]

theorem Means.roundWithin_eq {u : UnpackedFloat} {q : ℚ} (h : Means u q) (low high : ℤ) :
    (Binary.ofUnpacked u).roundWithin low high = Scalar.roundWithin low high q := by
  change _ = max low (min high (roundRational q))
  cases h with
  | zero sign =>
      have hzero : roundRational 0 = 0 := by decide +kernel
      rw [hzero]
      cases sign <;> rfl
  | @finite sign n e hdouble =>
      have hpos := mul_two_zpow_pos hdouble.pos e
      cases sign with
      | negative =>
          rw [signed, roundRational_neg_of_pos hpos, ← nearest_eq]
          rfl
      | positive =>
          rw [signed, roundRational_of_nonneg hpos.le, ← nearest_eq]
          rfl

theorem IsExactly.roundWithin_eq {x : Float} {q : ℚ} (h : IsExactly x q) (low high : ℤ) :
    Scalar.roundWithin low high x = Scalar.roundWithin low high q := by
  change (Binary.ofFloat x).roundWithin low high = _
  rw [Binary.ofFloat_eq]
  exact Means.roundWithin_eq h low high

theorem roundWithin_float_mem {low high : ℤ} (hlow : low ≤ 0) (hhigh : 0 ≤ high) (x : Float) :
    low ≤ Scalar.roundWithin low high x ∧ Scalar.roundWithin low high x ≤ high := by
  change low ≤ (Binary.ofFloat x).roundWithin low high ∧
    (Binary.ofFloat x).roundWithin low high ≤ high
  cases Binary.ofFloat x with
  | notANumber => exact ⟨hlow, hhigh⟩
  | infinite negative =>
      simp only [Binary.roundWithin, Binary.round, Binary.truncateWithin]
      split_ifs <;> omega
  | finite negative mantissa exponent =>
      simp only [Binary.roundWithin, Binary.round, Binary.truncateWithin]
      omega

end DepthRaster.Numeric
