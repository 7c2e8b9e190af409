import Mathlib
/-!
# Rounding to double precision

A number is cut off at the place that double precision has for its size. Two bits say how much was
cut off, which is enough to round to the nearest number, of two equally near to the even one.
-/

namespace DepthRaster.Numeric.Rounding

open Float.Model Float.Model.UnpackedFloat

/-! ## Cutting off -/

def halves (em : ExtendedMantissa) : ℕ := 2 * em.mantissa + em.roundBit.toNat

/-- Whether `x` has that many whole halves, and the second bit says if there is more. -/
structure Represents (em : ExtendedMantissa) (x : ℚ) : Prop where
  lower : halves em ≤ 2 * x
  upper : 2 * x < halves em + 1
  sticky : em.stickyBit = false ↔ 2 * x = halves em

/-- Whether `n` is the whole number nearest to `x`, of two equally near the even one. -/
def RoundsTo (x : ℚ) (n : ℕ) : Prop :=
  (n - 1 / 2 < x ∧ x < n + 1 / 2) ∨ (n % 2 = 0 ∧ n - 1 / 2 ≤ x ∧ x ≤ n + 1 / 2)

theorem RoundsTo.not_succ {x : ℚ} {n : ℕ} (h : RoundsTo x n) : ¬ RoundsTo x (n + 1) := by
  intro hsucc
  unfold RoundsTo at h hsucc
  push_cast at hsucc
  rcases h with h | h <;> rcases hsucc with hsucc | hsucc
  · linarith
  · linarith
  · linarith
  · omega

theorem RoundsTo.unique {x : ℚ} {n k : ℕ} (hn : RoundsTo x n) (hk : RoundsTo x k) : n = k := by
  have hnear : (n : ℚ) ≤ k + 1 ∧ (k : ℚ) ≤ n + 1 := by
    rcases hn with hn | hn <;> rcases hk with hk | hk <;> constructor <;> linarith
  obtain ⟨hle, hge⟩ : n ≤ k + 1 ∧ k ≤ n + 1 := by exact_mod_cast hnear
  rcases Nat.lt_trichotomy n k with hlt | heq | hgt
  · obtain rfl : k = n + 1 := by omega
    exact absurd hk hn.not_succ
  · exact heq
  · obtain rfl : n = k + 1 := by omega
    exact absurd hn hk.not_succ

namespace Represents

variable {em : ExtendedMantissa} {x : ℚ}

theorem mantissa_le (h : Represents em x) : em.mantissa ≤ x := by
  have hlower := h.lower
  have hbit : (0 : ℚ) ≤ em.roundBit.toNat := Nat.cast_nonneg _
  simp only [halves] at hlower
  push_cast at hlower
  linarith

theorem lt_mantissa_add_one (h : Represents em x) : x < em.mantissa + 1 := by
  have hupper := h.upper
  have hbit : (em.roundBit.toNat : ℚ) ≤ 1 := by exact_mod_cast em.roundBit.toNat_le
  simp only [halves] at hupper
  push_cast at hupper
  linarith

theorem shiftRightOne (h : Represents em x) : Represents em.shiftRightOne (x / 2) := by
  have hhalves : halves em.shiftRightOne = em.mantissa := by
    have hbit : (em.mantissa % 2 != 0).toNat = em.mantissa % 2 := by
      rcases Nat.mod_two_eq_zero_or_one em.mantissa with hmod | hmod <;> simp [hmod]
    simp only [halves, ExtendedMantissa.shiftRightOne, hbit]
    omega
  have hx : 2 * (x / 2) = x := by linarith
  constructor
  · rw [hhalves, hx]
    exact h.mantissa_le
  · rw [hhalves, hx]
    exact h.lt_mantissa_add_one
  · rw [hhalves, hx]
    have hlower := h.lower
    have hsticky := h.sticky
    simp only [halves] at hlower hsticky
    simp only [ExtendedMantissa.shiftRightOne, Bool.or_eq_false_iff, hsticky]
    cases hbit : em.roundBit with
    | false =>
        simp
    | true =>
        simp only [hbit, Bool.toNat_true] at hlower
        push_cast at hlower
        simp only [Bool.true_eq_false, false_and, false_iff]
        intro heq
        linarith

theorem shiftRight (h : Represents em x) (n : ℕ) : Represents (em >>> n) (x / 2 ^ n) := by
  change Represents (n.repeat ExtendedMantissa.shiftRightOne em) (x / 2 ^ n)
  induction n with
  | zero =>
      rw [pow_zero, div_one]
      exact h
  | succ n ih =>
      rw [Nat.repeat, pow_succ, ← div_div]
      exact ih.shiftRightOne

theorem roundsTo (h : Represents em x) : RoundsTo x em.roundedMantissa := by
  obtain ⟨n, roundBit, stickyBit⟩ := em
  obtain ⟨hlower, hupper, hsticky⟩ := h
  simp only [halves] at hlower hupper hsticky
  push_cast at hlower hupper hsticky
  cases roundBit with
  | false =>
      simp only [Bool.toNat_false, Nat.cast_zero, add_zero] at hlower hupper hsticky
      have hrounded : RoundsTo x n := .inl ⟨by linarith, by linarith⟩
      cases stickyBit with
      | false => exact hrounded
      | true => exact hrounded
  | true =>
      simp only [Bool.toNat_true, Nat.cast_one] at hlower hupper hsticky
      cases stickyBit with
      | false =>
          have hx := hsticky.mp rfl
          change RoundsTo x (n + n % 2)
          rcases Nat.mod_two_eq_zero_or_one n with hmod | hmod
          · rw [hmod, Nat.add_zero]
            exact .inr ⟨hmod, by linarith, by linarith⟩
          · rw [hmod]
            refine .inr ⟨by omega, ?_, ?_⟩ <;> push_cast <;> linarith
      | true =>
          have hne : 2 * x ≠ 2 * n + 1 := fun heq => Bool.noConfusion (hsticky.mpr heq)
          have hlt := lt_of_le_of_ne hlower hne.symm
          change RoundsTo x (n + 1)
          refine .inl ⟨?_, ?_⟩ <;> push_cast <;> linarith

end Represents

/-! ## Doubles -/

/-- Whether a positive mantissa and an exponent are how double precision writes a finite number. -/
structure IsDouble (n : ℕ) (e : ℤ) : Prop where
  pos : 0 < n
  lt : n < 2 ^ 53
  least : -1074 ≤ e
  greatest : e ≤ 971
  normal : 2 ^ 52 ≤ n ∨ e = -1074

/-- The lower end of the numbers that round to a double, in its last place. Below a power of two
they are half as far away, unless it is the least of all. -/
def lowerEnd (n : ℕ) (e : ℤ) : ℚ := if n = 2 ^ 52 ∧ -1074 < e then n - 1 / 4 else n - 1 / 2

/-- Whether a number rounds to a double. Those at the ends do when it is even. -/
def Near (n : ℕ) (e : ℤ) (x : ℚ) : Prop :=
  (lowerEnd n e < x / 2 ^ e ∧ x / 2 ^ e < n + 1 / 2) ∨
    (n % 2 = 0 ∧ lowerEnd n e ≤ x / 2 ^ e ∧ x / 2 ^ e ≤ n + 1 / 2)

/-- Whether `2 ^ t` is the last place that numbers of the size of `x` are rounded to. -/
structure IsPlace (x : ℚ) (t : ℤ) : Prop where
  least : -1074 ≤ t
  lt : x < 2 ^ (t + 53)
  le : t = -1074 ∨ 2 ^ (t + 52) ≤ x

theorem IsPlace.unique {x : ℚ} {t u : ℤ} (ht : IsPlace x t) (hu : IsPlace x u) : t = u := by
  have hle {t u : ℤ} (ht : IsPlace x t) (hu : IsPlace x u) : u ≤ t := by
    by_contra hlt
    have hleast := ht.least
    have hx := hu.le.resolve_left (by omega)
    have hpow : (2 : ℚ) ^ (t + 53) ≤ 2 ^ (u + 52) :=
      zpow_le_zpow_right₀ one_le_two (by omega)
    exact absurd ht.lt (not_lt.mpr (hpow.trans hx))
  exact le_antisymm (hle hu ht) (hle ht hu)

theorem targetExponent_eq (k : ℤ) : Format.binary64.targetExponent k = max (k - 53) (-1074) := rfl

theorem isPlace_targetExponent {m : ℕ} {k : ℤ} {x : ℚ} (hlow : m ≤ x / 2 ^ k)
    (hhigh : x / 2 ^ k < m + 1) (hk : k ≤ Format.binary64.targetExponent (totalExponent m k)) :
    IsPlace x (Format.binary64.targetExponent (totalExponent m k)) := by
  have hpos : (0 : ℚ) < 2 ^ k := zpow_pos two_pos k
  rw [le_div_iff₀ hpos] at hlow
  rw [div_lt_iff₀ hpos] at hhigh
  simp only [targetExponent_eq, totalExponent] at hk ⊢
  refine ⟨le_max_right _ _, ?_, ?_⟩
  · have hbits : (m : ℚ) + 1 ≤ 2 ^ (m.log2 + 1) := by exact_mod_cast Nat.lt_log2_self
    calc x < (m + 1) * 2 ^ k := hhigh
      _ ≤ 2 ^ (m.log2 + 1) * 2 ^ k := by gcongr
      _ = 2 ^ ((m.log2 : ℤ) + 1 + k) := by
          rw [zpow_add₀ two_ne_zero]
          norm_cast
      _ ≤ _ := zpow_le_zpow_right₀ one_le_two (by omega)
  · by_cases hleast : ((m.log2 : ℤ) + 1 + k - 53) ≤ -1074
    · exact .inl (max_eq_right hleast)
    · right
      have hm : m ≠ 0 := by
        rintro rfl
        have hlog : Nat.log2 0 = 0 := by decide
        omega
      have hbits : (2 : ℚ) ^ m.log2 ≤ m := by exact_mod_cast Nat.log2_self_le hm
      have hexponent : max ((m.log2 : ℤ) + 1 + k - 53) (-1074) + 52 = m.log2 + k := by omega
      rw [hexponent]
      calc (2 : ℚ) ^ ((m.log2 : ℤ) + k) = 2 ^ m.log2 * 2 ^ k := by
            rw [zpow_add₀ two_ne_zero]
            norm_cast
        _ ≤ m * 2 ^ k := by gcongr
        _ ≤ x := hlow

namespace Near

variable {n : ℕ} {e : ℤ} {x : ℚ}

theorem lowerEnd_le (hx : Near n e x) : lowerEnd n e ≤ x / 2 ^ e := by
  rcases hx with hx | hx
  · exact hx.1.le
  · exact hx.2.1

theorem le_upperEnd (hx : Near n e x) : x / 2 ^ e ≤ n + 1 / 2 := by
  rcases hx with hx | hx
  · exact hx.2.le
  · exact hx.2.2

theorem lt_two_pow (hdouble : IsDouble n e) (hx : Near n e x) : x / 2 ^ e < 2 ^ 53 := by
  have hmax : (n : ℚ) + 1 ≤ 2 ^ 53 := by exact_mod_cast hdouble.lt
  linarith [hx.le_upperEnd]

theorem abs_sub_le (hx : Near n e x) : |n * 2 ^ e - x| ≤ 2 ^ e / 2 := by
  have hpos : (0 : ℚ) < 2 ^ e := zpow_pos two_pos e
  have hlower : (n : ℚ) - 1 / 2 ≤ x / 2 ^ e := by
    refine le_trans ?_ hx.lowerEnd_le
    unfold lowerEnd
    split_ifs <;> linarith
  have hupper := hx.le_upperEnd
  rw [le_div_iff₀ hpos] at hlower
  rw [div_le_iff₀ hpos] at hupper
  rw [abs_le]
  constructor <;> linarith

theorem error (hdouble : IsDouble n e) (hx : Near n e x) (hlow : 2 ^ (-1000 : ℤ) ≤ x) :
    |n * 2 ^ e - x| ≤ x / 2 ^ 52 := by
  have hpos : (0 : ℚ) < 2 ^ e := zpow_pos two_pos e
  have hdiff := hx.abs_sub_le
  refine hdiff.trans ?_
  rcases hdouble.normal with hnormal | rfl
  · have hn : (2 : ℚ) ^ 52 ≤ n := by exact_mod_cast hnormal
    have hx_ge : (2 ^ 52 - 1 / 2) * 2 ^ e ≤ x := by
      have hupper := (abs_le.mp hdiff).2
      nlinarith
    rw [div_le_div_iff₀ two_pos (by positivity)]
    nlinarith
  · calc (2 : ℚ) ^ (-1074 : ℤ) / 2 ≤ 2 ^ (-1074 : ℤ) := half_le_self hpos.le
      _ ≤ 2 ^ (-1000 - 52 : ℤ) := zpow_le_zpow_right₀ one_le_two (by norm_num)
      _ = 2 ^ (-1000 : ℤ) / 2 ^ 52 := by rw [zpow_sub₀ two_ne_zero, zpow_ofNat]
      _ ≤ x / 2 ^ 52 := div_le_div_of_nonneg_right hlow (by positivity)

/-- Above the mantissas of fewer bits, a number near a double is rounded at the last place of it. -/
theorem roundsTo_of_le (hdouble : IsDouble n e) (hx : Near n e x)
    (hplace : e = -1074 ∨ 2 ^ 52 ≤ x / 2 ^ e) : IsPlace x e ∧ RoundsTo (x / 2 ^ e) n := by
  have hpos : (0 : ℚ) < 2 ^ e := zpow_pos two_pos e
  have hupper := hx.lt_two_pow hdouble
  refine ⟨⟨hdouble.least, ?_, ?_⟩, ?_⟩
  · rw [add_comm, zpow_add₀ two_ne_zero, ← div_lt_iff₀ hpos]
    exact_mod_cast hupper
  · refine hplace.imp_right fun hle => ?_
    rw [add_comm, zpow_add₀ two_ne_zero, ← le_div_iff₀ hpos]
    exact_mod_cast hle
  · by_cases hpower : n = 2 ^ 52 ∧ -1074 < e
    · have hle : (n : ℚ) ≤ x / 2 ^ e := by
        rw [hpower.1]
        exact_mod_cast hplace.resolve_left (by omega)
      rcases hx with hx | hx
      · exact .inl ⟨by linarith, hx.2⟩
      · exact .inr ⟨hx.1, by linarith, hx.2.2⟩
    · rw [Near, lowerEnd, if_neg hpower] at hx
      exact hx

/-- Below them the double is a power of two, and the number is rounded at the place before. -/
theorem roundsTo_of_lt (hdouble : IsDouble n e) (hx : Near n e x) (hne : e ≠ -1074)
    (hbelow : x / 2 ^ e < 2 ^ 52) :
    n = 2 ^ 52 ∧ IsPlace x (e - 1) ∧ RoundsTo (x / 2 ^ (e - 1)) (2 ^ 53) := by
  have hleast : -1074 < e := lt_of_le_of_ne hdouble.least (Ne.symm hne)
  have hlower := hx.lowerEnd_le
  have hn : n = 2 ^ 52 := by
    by_contra hpower
    have hnormal := hdouble.normal.resolve_right hne
    have hsucc : (2 : ℚ) ^ 52 + 1 ≤ n := by
      exact_mod_cast Nat.lt_of_le_of_ne hnormal (Ne.symm hpower)
    rw [lowerEnd, if_neg fun h => hpower h.1] at hlower
    linarith
  rw [lowerEnd, if_pos ⟨hn, hleast⟩, hn] at hlower
  push_cast at hlower
  have hpos : (0 : ℚ) < 2 ^ (e - 1) := zpow_pos two_pos (e - 1)
  have hbefore : x / 2 ^ (e - 1) = 2 * (x / 2 ^ e) := by
    rw [zpow_sub_one₀ two_ne_zero]
    field_simp
  refine ⟨hn, ⟨by omega, ?_, .inr ?_⟩, .inr ⟨by decide, ?_, ?_⟩⟩
  · rw [add_comm, zpow_add₀ two_ne_zero, ← div_lt_iff₀ hpos, hbefore, zpow_ofNat]
    linarith
  · rw [add_comm, zpow_add₀ two_ne_zero, ← le_div_iff₀ hpos, hbefore, zpow_ofNat]
    linarith
  · rw [hbefore]
    push_cast
    linarith
  · rw [hbefore]
    push_cast
    linarith

end Near

/-! ## Shifting to a place -/

theorem shiftToTargetExponent_eq {m shift : ℕ} {k : ℤ} (acc : Accuracy)
    (hshift : Format.binary64.targetExponent (totalExponent m k) = k + shift) :
    shiftToTargetExponent Format.binary64 m k acc =
      (ExtendedMantissa.ofMantissaAndAccuracy m acc >>> shift, k + shift) := by
  have hamount : (k + shift - k).toNat = shift := by omega
  simp only [shiftToTargetExponent, shiftToExponent, hshift, hamount]

theorem mantissa_ofMantissaAndAccuracy (m : ℕ) (acc : Accuracy) :
    (ExtendedMantissa.ofMantissaAndAccuracy m acc).mantissa = m := by
  cases acc with
  | exact => rfl
  | inexact ordering => cases ordering <;> rfl

theorem exists_shiftToTargetExponent_eq {m : ℕ} {k : ℤ} {acc : Accuracy} {x : ℚ}
    (h : Represents (.ofMantissaAndAccuracy m acc) (x / 2 ^ k))
    (hk : k ≤ Format.binary64.targetExponent (totalExponent m k)) :
    ∃ em t, shiftToTargetExponent Format.binary64 m k acc = (em, t) ∧ IsPlace x t ∧
      Represents em (x / 2 ^ t) := by
  have hlow := h.mantissa_le
  have hhigh := h.lt_mantissa_add_one
  rw [mantissa_ofMantissaAndAccuracy] at hlow hhigh
  have hplace := isPlace_targetExponent hlow hhigh hk
  obtain ⟨shift, hshift⟩ := Int.le.dest hk
  rw [← hshift] at hplace
  refine ⟨_, _, shiftToTargetExponent_eq acc hshift.symm, hplace, ?_⟩
  rw [zpow_add₀ two_ne_zero, zpow_natCast, ← div_div]
  exact h.shiftRight shift

theorem shiftToTargetExponent_double {n : ℕ} {e : ℤ} (h : IsDouble n e) :
    shiftToTargetExponent Format.binary64 n e .exact = (⟨n, false, false⟩, e) := by
  have hlog : n.log2 < 53 := (Nat.log2_lt h.pos.ne').mpr h.lt
  have hnormal : n.log2 = 52 ∨ e = -1074 := by
    refine h.normal.imp_left fun hle => ?_
    have hge := (Nat.le_log2 h.pos.ne').mpr hle
    omega
  have htarget : Format.binary64.targetExponent (totalExponent n e) = e + (0 : ℕ) := by
    have hleast := h.least
    rw [targetExponent_eq, totalExponent]
    omega
  rw [shiftToTargetExponent_eq .exact htarget, Nat.cast_zero, add_zero]
  rfl

theorem shiftToTargetExponent_carry {e : ℤ} (h : -1074 ≤ e - 1) :
    shiftToTargetExponent Format.binary64 (2 ^ 53) (e - 1) .exact =
      (⟨2 ^ 52, false, false⟩, e) := by
  have htarget : Format.binary64.targetExponent (totalExponent (2 ^ 53) (e - 1)) =
      e - 1 + (1 : ℕ) := by
    rw [targetExponent_eq, totalExponent, Nat.log2_two_pow]
    omega
  rw [shiftToTargetExponent_eq .exact htarget, Nat.cast_one, sub_add_cancel]
  rfl

/-- A number near a double is rounded to it, however it was cut off before. -/
theorem roundWithAccuracy_of_near {n : ℕ} {e : ℤ} {x : ℚ} (hdouble : IsDouble n e) (hx : Near n e x)
    {m : ℕ} {k : ℤ} {acc : Accuracy} (h : Represents (.ofMantissaAndAccuracy m acc) (x / 2 ^ k))
    (hk : k ≤ Format.binary64.targetExponent (totalExponent m k)) (sign : Sign) :
    roundWithAccuracy Format.binary64 sign m k acc = .finite sign n e hdouble.pos := by
  obtain ⟨em, t, hshift, hplace, hem⟩ := exists_shiftToTargetExponent_eq h hk
  have hsecond : shiftToTargetExponent Format.binary64 em.roundedMantissa t .exact =
      (⟨n, false, false⟩, e) := by
    by_cases hle : e = -1074 ∨ 2 ^ 52 ≤ x / 2 ^ e
    · obtain ⟨hplace', hrounds⟩ := hx.roundsTo_of_le hdouble hle
      obtain rfl := hplace.unique hplace'
      rw [hem.roundsTo.unique hrounds]
      exact shiftToTargetExponent_double hdouble
    · rw [not_or, not_le] at hle
      obtain ⟨rfl, hplace', hrounds⟩ := hx.roundsTo_of_lt hdouble hle.1 hle.2
      obtain rfl := hplace.unique hplace'
      rw [hem.roundsTo.unique hrounds]
      exact shiftToTargetExponent_carry hplace'.least
  simp only [roundWithAccuracy, hshift, hsecond]
  rw [dif_neg hdouble.pos.ne']

theorem lowerEnd_lt (n : ℕ) (e : ℤ) : lowerEnd n e < n := by
  unfold lowerEnd
  split_ifs <;> linarith

theorem near_self (n : ℕ) (e : ℤ) : Near n e (n * 2 ^ e) := by
  have hpos : (0 : ℚ) < 2 ^ e := zpow_pos two_pos e
  rw [Near, mul_div_cancel_right₀ _ hpos.ne']
  exact .inl ⟨lowerEnd_lt n e, by linarith⟩

theorem represents_exact (m : ℕ) : Represents (.ofMantissaAndAccuracy m .exact) m := by
  have hhalves : halves (.ofMantissaAndAccuracy m .exact) = 2 * m := rfl
  constructor
  · rw [hhalves]
    push_cast
    exact le_rfl
  · rw [hhalves]
    push_cast
    linarith
  · rw [hhalves]
    push_cast
    exact ⟨fun _ => rfl, fun _ => rfl⟩

end DepthRaster.Numeric.Rounding
