import DepthRaster.Numeric.Scientific
import DepthRaster.Proofs.Numeric.Operations
import DepthRaster.Proofs.Numeric.Packing
/-!
# Decimals read as doubles

A decimal that rounds to a double is read as that double, whichever way its power of ten is brought
in.
-/

namespace DepthRaster.Numeric

open Float.Model Float.Model.UnpackedFloat
open Packing Rounding

theorem Binary.eq_finite_of_ofUnpacked {u : UnpackedFloat} {n : ℕ} {e : ℤ} (hn : 0 < n)
    (h : ofUnpacked u = .finite false n e) : u = .finite .positive n e hn := by
  cases u with
  | notANumber => exact absurd h nofun
  | infinity sign => exact absurd h nofun
  | zero sign =>
      obtain ⟨-, rfl, -⟩ := Binary.finite.inj h
      exact absurd hn (Nat.lt_irrefl 0)
  | finite sign m k hm =>
      obtain ⟨hsign, rfl, rfl⟩ := Binary.finite.inj h
      cases sign with
      | negative => exact absurd hsign nofun
      | positive => rfl

namespace Decimals

variable {n : ℕ} {e : ℤ}

/-! ## Powers of ten -/

def powerMantissa (k : ℕ) : ℕ := 5 ^ k * 2 ^ (52 - (5 ^ k).log2)

def powerExponent (k : ℕ) : ℤ := k - (52 - (5 ^ k).log2 : ℕ)

theorem powerMantissa_mul (k : ℕ) : (powerMantissa k : ℚ) * 2 ^ powerExponent k = 10 ^ k := by
  rw [powerMantissa, powerExponent, zpow_sub₀ two_ne_zero, zpow_natCast, zpow_natCast]
  push_cast
  rw [mul_assoc, mul_div_cancel₀ _ (pow_ne_zero _ two_ne_zero), ← mul_pow]
  norm_num

theorem ofFloat_powerOfTen : ∀ k : Fin 23, 2 ^ 52 ≤ powerMantissa k ∧
    Binary.ofFloat Float.exactlyRepresentablePowersOfTen[k] =
      .finite false (powerMantissa k) (powerExponent k) := by
  decide +kernel

theorem exists_unpack_powerOfTen {k : ℕ} (hk : k < Float.exactlyRepresentablePowersOfTen.size) :
    ∃ m p hm, Float.exactlyRepresentablePowersOfTen[k].toModel.unpack =
        .finite .positive m p hm ∧ 2 ^ 52 ≤ m ∧ (m : ℚ) * 2 ^ p = 10 ^ k := by
  obtain ⟨hsize, hvalue⟩ := ofFloat_powerOfTen ⟨k, hk⟩
  rw [Binary.ofFloat_eq] at hvalue
  have hpos : 0 < powerMantissa k := Nat.lt_of_lt_of_le (by decide) hsize
  exact ⟨_, _, hpos, Binary.eq_finite_of_ofUnpacked hpos hvalue, hsize, powerMantissa_mul k⟩

/-! ## Whole numbers -/

theorem exists_isDouble {m : ℕ} (hpos : 0 < m) (hlt : m < 2 ^ 53) {j : ℤ} (hleast : -1022 ≤ j)
    (hgreatest : j ≤ 971) : ∃ n e, IsDouble n e ∧ 2 ^ 52 ≤ n ∧ (n : ℚ) * 2 ^ e = m * 2 ^ j := by
  have hlog : m.log2 < 53 := (Nat.log2_lt hpos.ne').mpr hlt
  have hbits : 2 ^ m.log2 ≤ m ∧ m < 2 ^ (m.log2 + 1) :=
    ⟨Nat.log2_self_le hpos.ne', Nat.lt_log2_self⟩
  generalize m.log2 = bits at hlog hbits
  have hlow : 2 ^ 52 ≤ m * 2 ^ (52 - bits) := by
    calc 2 ^ 52 = 2 ^ bits * 2 ^ (52 - bits) := by rw [← pow_add, Nat.add_sub_cancel' (by omega)]
      _ ≤ m * 2 ^ (52 - bits) := Nat.mul_le_mul_right _ hbits.1
  have hhigh : m * 2 ^ (52 - bits) < 2 ^ 53 := by
    calc m * 2 ^ (52 - bits) < 2 ^ (bits + 1) * 2 ^ (52 - bits) :=
          Nat.mul_lt_mul_of_pos_right hbits.2 (Nat.two_pow_pos _)
      _ = 2 ^ 53 := by
          rw [← pow_add]
          congr 1
          omega
  refine ⟨m * 2 ^ (52 - bits), j - (52 - bits : ℕ), ⟨by omega, hhigh, by omega, by omega,
    .inl hlow⟩, hlow, ?_⟩
  rw [zpow_sub₀ two_ne_zero, zpow_natCast]
  push_cast
  rw [mul_assoc, mul_div_cancel₀ _ (pow_ne_zero _ two_ne_zero)]

theorem exists_unpack_toFloat {m : ℕ} (hpos : 0 < m) (hlt : m < 2 ^ 53) :
    ∃ n e hn, m.toUInt64.toFloat.toModel.unpack = .finite .positive n e hn ∧ 2 ^ 52 ≤ n ∧
      (n : ℚ) * 2 ^ e = m := by
  obtain ⟨n, e, hdouble, hsize, hvalue⟩ := exists_isDouble hpos hlt (j := 0) (by decide) (by decide)
  rw [zpow_zero, mul_one] at hvalue
  refine ⟨n, e, hdouble.pos, ?_, hsize, hvalue⟩
  have hword : m.toUInt64.toNat = m :=
    UInt64.toNat_ofNat_of_lt' (Nat.lt_trans hlt (by decide))
  have hnear : Near n e m := hvalue ▸ near_self n e
  change (Float.Model.pack (UnpackedFloat.ofNat Format.binary64 m.toUInt64.toNat)).unpack = _
  rw [hword, ofNat_of_near hdouble hpos hnear, unpack_pack hdouble]

/-! ## Decimals -/

theorem ofScientific_model_of_near (hdouble : IsDouble n e) {m : ℕ} {k : ℤ} (hm : m ≠ 0)
    (hlow : -(2048 + (m.log2 : ℤ)) ≤ k) (hhigh : k ≤ 2048) (hx : Near n e (m * 10 ^ k)) :
    UnpackedFloat.ofScientific Format.binary64 m k = .finite .positive n e hdouble.pos := by
  have hmax : (2 : ℤ) ^ Format.binary64.exponentBits = 2048 := rfl
  rw [UnpackedFloat.ofScientific, dif_neg hm, hmax, if_neg (not_lt.mpr hhigh),
    if_neg (not_lt.mpr hlow)]
  split_ifs with hk
  · obtain ⟨k, rfl⟩ := Int.eq_ofNat_of_zero_le hk
    have hvalue : ((m <<< Format.binary64.mantissaBits : ℕ) : ℚ) *
        2 ^ (-(Format.binary64.mantissaBits : ℤ)) * ((10 ^ (k : ℤ).toNat : ℕ) * 2 ^ (0 : ℤ)) =
          m * 10 ^ (k : ℤ) := by
      rw [Nat.shiftLeft_eq, zpow_neg, zpow_natCast, zpow_zero, mul_one, Int.toNat_natCast,
        zpow_natCast]
      push_cast
      rw [mul_inv_cancel_right₀ (pow_ne_zero _ two_ne_zero)]
    have hsize : 2 ^ 52 ≤ m <<< Format.binary64.mantissaBits * 10 ^ (k : ℤ).toNat := by
      rw [Nat.shiftLeft_eq]
      calc 2 ^ 52 ≤ 1 * 2 ^ Format.binary64.mantissaBits * 1 := by decide
        _ ≤ m * 2 ^ Format.binary64.mantissaBits * 10 ^ (k : ℤ).toNat :=
            Nat.mul_le_mul (Nat.mul_le_mul_right _ (Nat.pos_of_ne_zero hm))
              (Nat.pow_pos (by decide))
    rw [← hvalue] at hx
    exact mul_of_near hdouble (.inl hsize) hx
  · obtain ⟨k, rfl⟩ : ∃ j : ℕ, k = -j := ⟨(-k).toNat, by omega⟩
    have hvalue : (m : ℚ) * 2 ^ (0 : ℤ) / ((10 ^ (- -(k : ℤ)).toNat : ℕ) * 2 ^ (0 : ℤ)) =
        m * 10 ^ (-(k : ℤ)) := by
      rw [neg_neg, Int.toNat_natCast, zpow_zero, mul_one, mul_one, zpow_neg, zpow_natCast]
      push_cast
      exact div_eq_mul_inv _ _
    rw [← hvalue] at hx
    exact div_of_near hdouble hx

theorem mul_eq_of_near (hdouble : IsDouble n e) {x y : Float} {m₁ m₂ : ℕ} {k₁ k₂ : ℤ} {h₁ : 0 < m₁}
    {h₂ : 0 < m₂} (hx : x.toModel.unpack = .finite .positive m₁ k₁ h₁)
    (hy : y.toModel.unpack = .finite .positive m₂ k₂ h₂) (hsize : 2 ^ 52 ≤ m₁)
    (hnear : Near n e ((m₁ * 2 ^ k₁) * (m₂ * 2 ^ k₂))) :
    x * y = .ofModel (.pack (.finite .positive n e hdouble.pos)) := by
  have hproduct : 2 ^ 52 ≤ m₁ * m₂ := Nat.le_trans hsize (Nat.le_mul_of_pos_right m₁ h₂)
  change Float.ofModel (.pack (UnpackedFloat.mul Format.binary64 x.toModel.unpack
    y.toModel.unpack)) = _
  rw [hx, hy, mul_of_near hdouble (.inl hproduct) hnear]
  rfl

theorem div_eq_of_near (hdouble : IsDouble n e) {x y : Float} {m₁ m₂ : ℕ} {k₁ k₂ : ℤ} {h₁ : 0 < m₁}
    {h₂ : 0 < m₂} (hx : x.toModel.unpack = .finite .positive m₁ k₁ h₁)
    (hy : y.toModel.unpack = .finite .positive m₂ k₂ h₂)
    (hnear : Near n e ((m₁ * 2 ^ k₁) / (m₂ * 2 ^ k₂))) :
    x / y = .ofModel (.pack (.finite .positive n e hdouble.pos)) := by
  change Float.ofModel (.pack (UnpackedFloat.div Format.binary64 x.toModel.unpack
    y.toModel.unpack)) = _
  rw [hx, hy, div_of_near hdouble hnear]
  rfl

/-- Small powers of ten are brought in as doubles, others in exact numbers. -/
theorem ofScientific_of_near (hdouble : IsDouble n e) {m : ℕ} {k : ℤ} (hm : m ≠ 0)
    (hlow : -(2048 + (m.log2 : ℤ)) ≤ k) (hhigh : k ≤ 2048) (hx : Near n e (m * 10 ^ k)) :
    Float.ofScientific m (decide (k < 0)) k.natAbs =
      .ofModel (.pack (.finite .positive n e hdouble.pos)) := by
  have hslow := ofScientific_model_of_near hdouble hm hlow hhigh hx
  have hsize : Float.exactlyRepresentablePowersOfTen.size = 23 := rfl
  unfold Float.ofScientific
  split_ifs with hfast hnegative hnegative
  · obtain ⟨m₁, k₁, h₁, hword, -, hvalue⟩ := exists_unpack_toFloat (Nat.pos_of_ne_zero hm) hfast.1
    obtain ⟨m₂, k₂, h₂, hpower, -, hten⟩ := exists_unpack_powerOfTen (k := k.natAbs) (by omega)
    have habs : k = -(k.natAbs : ℤ) := by
      have hlt := of_decide_eq_true hnegative
      omega
    refine div_eq_of_near hdouble hword hpower ?_
    rw [habs, zpow_neg, zpow_natCast, ← div_eq_mul_inv] at hx
    rw [hvalue, hten]
    exact hx
  · obtain ⟨m₁, k₁, h₁, hword, hbits, hvalue⟩ :=
      exists_unpack_toFloat (Nat.pos_of_ne_zero hm) hfast.1
    obtain ⟨m₂, k₂, h₂, hpower, -, hten⟩ := exists_unpack_powerOfTen (k := k.natAbs) (by omega)
    have habs : k = (k.natAbs : ℤ) := by
      have hge := of_decide_eq_false (eq_false_of_ne_true hnegative)
      omega
    refine mul_eq_of_near hdouble hword hpower hbits ?_
    rw [habs, zpow_natCast] at hx
    rw [hvalue, hten]
    exact hx
  · have habs : Int.negOfNat k.natAbs = k := by
      have hlt := of_decide_eq_true hnegative
      rw [Int.negOfNat_eq, Int.ofNat_eq_natCast]
      omega
    simp only [Float.Model.ofScientific, habs, hslow]
  · have habs : Int.ofNat k.natAbs = k := by
      have hge := of_decide_eq_false (eq_false_of_ne_true hnegative)
      rw [Int.ofNat_eq_natCast]
      omega
    simp only [Float.Model.ofScientific, habs, hslow]

/-! ## Sizes -/

theorem bounds_of_near {x : ℚ} (hdouble : IsDouble n e) (hx : Near n e x) :
    (2 : ℚ) ^ (-1075 : ℤ) ≤ x ∧ x < 2 ^ (1024 : ℤ) := by
  have hpos : (0 : ℚ) < 2 ^ e := zpow_pos two_pos e
  have hone : (1 : ℚ) ≤ n := by exact_mod_cast hdouble.pos
  have hlow : 2⁻¹ ≤ x / 2 ^ e := by
    have hend : 2⁻¹ ≤ lowerEnd n e := by
      unfold lowerEnd
      split_ifs <;> linarith
    exact hend.trans hx.lowerEnd_le
  have hhigh := hx.lt_two_pow hdouble
  rw [le_div_iff₀ hpos] at hlow
  rw [div_lt_iff₀ hpos] at hhigh
  constructor
  · calc (2 : ℚ) ^ (-1075 : ℤ) ≤ 2 ^ (-1 + e) :=
          zpow_le_zpow_right₀ one_le_two (by linarith [hdouble.least])
      _ = 2⁻¹ * 2 ^ e := by rw [zpow_add₀ two_ne_zero, zpow_neg_one]
      _ ≤ x := hlow
  · calc x < 2 ^ 53 * 2 ^ e := hhigh
      _ = 2 ^ (53 + e) := by rw [zpow_add₀ two_ne_zero, zpow_ofNat]
      _ ≤ 2 ^ (1024 : ℤ) := zpow_le_zpow_right₀ one_le_two (by linarith [hdouble.greatest])

theorem ne_zero_of_near {m : ℕ} {k : ℤ} (hdouble : IsDouble n e) (hx : Near n e (m * 10 ^ k)) :
    m ≠ 0 := by
  rintro rfl
  have hlow := (bounds_of_near hdouble hx).1
  rw [Nat.cast_zero, zero_mul] at hlow
  exact absurd hlow (not_le.mpr (zpow_pos two_pos (-1075)))

theorem exponent_bounds {m : ℕ} {k : ℤ} (hdouble : IsDouble n e) (hm : m ≠ 0)
    (hx : Near n e (m * 10 ^ k)) : -400 - (m.log2 : ℤ) ≤ k ∧ k ≤ 400 := by
  obtain ⟨hlow, hhigh⟩ := bounds_of_near hdouble hx
  have hten (j : ℤ) : (0 : ℚ) < 10 ^ j := zpow_pos (by norm_num) j
  constructor
  · by_contra hlt
    have hbits : (m : ℚ) ≤ 10 ^ ((m.log2 : ℤ) + 1) := by
      have hnat : m ≤ 10 ^ (m.log2 + 1) :=
        Nat.le_trans (Nat.le_of_lt Nat.lt_log2_self) (Nat.pow_le_pow_left (by decide) _)
      exact_mod_cast hnat
    have hleast : (10 : ℚ) ^ (-400 : ℤ) < 2 ^ (-1075 : ℤ) := by
      rw [zpow_neg, zpow_neg, zpow_ofNat, zpow_ofNat, inv_lt_inv₀ (by positivity) (by positivity)]
      exact_mod_cast (by decide +kernel : 2 ^ 1075 < 10 ^ 400)
    have hsmall : (m : ℚ) * 10 ^ k < 2 ^ (-1075 : ℤ) := by
      calc (m : ℚ) * 10 ^ k ≤ 10 ^ ((m.log2 : ℤ) + 1) * 10 ^ k :=
            mul_le_mul_of_nonneg_right hbits (hten k).le
        _ = 10 ^ ((m.log2 : ℤ) + 1 + k) := (zpow_add₀ (by norm_num) _ k).symm
        _ ≤ 10 ^ (-400 : ℤ) := zpow_le_zpow_right₀ (by norm_num) (by omega)
        _ < 2 ^ (-1075 : ℤ) := hleast
    exact absurd hlow (not_le.mpr hsmall)
  · by_contra hlt
    have hone : (1 : ℚ) ≤ m := by exact_mod_cast Nat.pos_of_ne_zero hm
    have hgreatest : (2 : ℚ) ^ (1024 : ℤ) ≤ 10 ^ (401 : ℤ) := by
      rw [zpow_ofNat, zpow_ofNat]
      exact_mod_cast (by decide +kernel : 2 ^ 1024 ≤ 10 ^ 401)
    have hlarge : (2 : ℚ) ^ (1024 : ℤ) ≤ m * 10 ^ k := by
      calc (2 : ℚ) ^ (1024 : ℤ) ≤ 10 ^ (401 : ℤ) := hgreatest
        _ ≤ 10 ^ k := zpow_le_zpow_right₀ (by norm_num) (by omega)
        _ ≤ m * 10 ^ k := le_mul_of_one_le_left (hten k).le hone
    exact absurd hhigh (not_lt.mpr hlarge)

/-! ## Signs -/

def signOf (negative : Bool) : Sign := if negative then .negative else .positive

theorem signOf_isNegative (sign : Sign) : signOf (Binary.isNegative sign) = sign := by
  cases sign with
  | negative => rfl
  | positive => rfl

theorem neg_pack (hdouble : IsDouble n e) :
    -Float.ofModel (.pack (.finite .positive n e hdouble.pos)) =
      .ofModel (.pack (.finite .negative n e hdouble.pos)) := by
  change Float.ofModel (.pack (Float.Model.pack (.finite .positive n e hdouble.pos)).unpack.neg) = _
  rw [unpack_pack hdouble]
  rfl

theorem toFloat_of_near (hdouble : IsDouble n e) {s : Scientific}
    (hx : Near n e (s.digits * 10 ^ s.exponent)) :
    s.toFloat = .ofModel (.pack (.finite (signOf s.negative) n e hdouble.pos)) := by
  have hdigits := ne_zero_of_near hdouble hx
  obtain ⟨hlow, hhigh⟩ := exponent_bounds hdouble hdigits hx
  have hsize : s.size = .ordinary := by
    rw [Scientific.size, if_neg, if_neg (not_lt.mpr hhigh)]
    rintro (hzero | hsmall)
    · exact hdigits hzero
    · exact absurd hlow (not_le.mpr hsmall)
  have hmagnitude := ofScientific_of_near hdouble hdigits (by omega) (by omega) hx
  simp only [Scientific.toFloat, hsize, hmagnitude]
  cases s.negative with
  | false => rfl
  | true => exact neg_pack hdouble

end Decimals

end DepthRaster.Numeric
