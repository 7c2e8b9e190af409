import DepthRaster.Proofs.Numeric.Rounding
/-!
# Operations rounded to double precision

Products, quotients and whole numbers come out as the double that their exact value rounds to.
-/

namespace DepthRaster.Numeric.Rounding

open Float.Model Float.Model.UnpackedFloat

theorem two_zpow_ne_zero (k : ℤ) : (2 : ℚ) ^ k ≠ 0 := (zpow_pos two_pos k).ne'

theorem le_targetExponent {m : ℕ} {k : ℤ} (h : 2 ^ 52 ≤ m ∨ k ≤ -1074) :
    k ≤ Format.binary64.targetExponent (totalExponent m k) := by
  rw [targetExponent_eq, totalExponent]
  rcases h with h | h
  · have hlog : 52 ≤ m.log2 := (Nat.le_log2 (by omega)).mpr h
    omega
  · omega

theorem log2_mul_two_pow {m : ℕ} (hm : m ≠ 0) (k : ℕ) : (m * 2 ^ k).log2 = m.log2 + k := by
  have hne : m * 2 ^ k ≠ 0 := Nat.mul_ne_zero hm (Nat.two_pow_pos k).ne'
  obtain ⟨hlow, hhigh⟩ := (Nat.log2_eq_iff hm).mp rfl
  refine (Nat.log2_eq_iff hne).mpr ⟨?_, ?_⟩
  · rw [pow_add]
    exact Nat.mul_le_mul_right (2 ^ k) hlow
  · rw [add_right_comm, pow_add]
    exact Nat.mul_lt_mul_of_pos_right hhigh (Nat.two_pow_pos k)

/-! ## Products and whole numbers -/

section

variable {n : ℕ} {e : ℤ}

theorem roundWithAccuracy_exact (hdouble : IsDouble n e) {m : ℕ} {k : ℤ}
    (hx : Near n e (m * 2 ^ k))
    (hk : k ≤ Format.binary64.targetExponent (totalExponent m k)) (sign : Sign) :
    roundWithAccuracy Format.binary64 sign m k .exact = .finite sign n e hdouble.pos := by
  refine roundWithAccuracy_of_near hdouble hx ?_ hk sign
  rw [mul_div_cancel_right₀ _ (two_zpow_ne_zero k)]
  exact represents_exact m

theorem mul_of_near (hdouble : IsDouble n e) {s₁ s₂ : Sign} {m₁ m₂ : ℕ} {k₁ k₂ : ℤ} {h₁ : 0 < m₁}
    {h₂ : 0 < m₂} (hsize : 2 ^ 52 ≤ m₁ * m₂ ∨ k₁ + k₂ ≤ -1074)
    (hx : Near n e ((m₁ * 2 ^ k₁) * (m₂ * 2 ^ k₂))) :
    UnpackedFloat.mul Format.binary64 (.finite s₁ m₁ k₁ h₁) (.finite s₂ m₂ k₂ h₂) =
      .finite (s₁ * s₂) n e hdouble.pos := by
  rw [mul_mul_mul_comm, ← zpow_add₀ two_ne_zero, ← Nat.cast_mul] at hx
  exact roundWithAccuracy_exact hdouble hx (le_targetExponent hsize) (s₁ * s₂)

theorem round_of_near (hdouble : IsDouble n e) {m : ℕ} {k : ℤ} (hm : 0 < m)
    (hx : Near n e (m * 2 ^ k)) (sign : Sign) :
    UnpackedFloat.round Format.binary64 sign m k = .finite sign n e hdouble.pos := by
  simp only [UnpackedFloat.round, decreaseExponent]
  generalize hshift : (k - Format.binary64.targetExponent (totalExponent m k)).toNat = shift
  have hvalue : ((m <<< shift : ℕ) : ℚ) * 2 ^ (k - shift) = m * 2 ^ k := by
    rw [Nat.shiftLeft_eq, zpow_sub₀ two_ne_zero, zpow_natCast]
    push_cast
    rw [mul_assoc, mul_div_cancel₀ _ (pow_ne_zero shift two_ne_zero)]
  have htotal : totalExponent (m <<< shift) (k - shift) = totalExponent m k := by
    simp only [totalExponent, Nat.shiftLeft_eq, log2_mul_two_pow hm.ne']
    omega
  rw [← hvalue] at hx
  refine roundWithAccuracy_exact hdouble hx ?_ sign
  rw [htotal]
  omega

theorem ofNat_of_near (hdouble : IsDouble n e) {m : ℕ} (hm : 0 < m) (hx : Near n e m) :
    UnpackedFloat.ofNat Format.binary64 m = .finite .positive n e hdouble.pos := by
  have hcompare : compare (m : ℤ) 0 = .gt := Int.compare_eq_gt.mpr (Int.natCast_pos.mpr hm)
  simp only [UnpackedFloat.ofNat, UnpackedFloat.ofInt, UnpackedFloat.normalize, hcompare,
    Int.toNat_natCast]
  refine round_of_near hdouble hm ?_ .positive
  rw [zpow_zero, mul_one]
  exact hx

end

/-! ## Quotients -/

theorem represents_of_lt {q : ℕ} {x : ℚ} (hlow : q < x) (hhigh : x < q + 1 / 2) :
    Represents (.ofMantissaAndAccuracy q (.inexact .lt)) x := by
  have hhalves : halves (.ofMantissaAndAccuracy q (.inexact .lt)) = 2 * q := rfl
  constructor <;> rw [hhalves] <;> push_cast
  · linarith
  · linarith
  · exact ⟨fun h => Bool.noConfusion h, fun h => by linarith⟩

theorem represents_of_eq {q : ℕ} {x : ℚ} (h : x = q + 1 / 2) :
    Represents (.ofMantissaAndAccuracy q (.inexact .eq)) x := by
  have hhalves : halves (.ofMantissaAndAccuracy q (.inexact .eq)) = 2 * q + 1 := rfl
  constructor <;> rw [hhalves] <;> push_cast
  · linarith
  · linarith
  · exact ⟨fun _ => by linarith, fun _ => rfl⟩

theorem represents_of_gt {q : ℕ} {x : ℚ} (hlow : q + 1 / 2 < x) (hhigh : x < q + 1) :
    Represents (.ofMantissaAndAccuracy q (.inexact .gt)) x := by
  have hhalves : halves (.ofMantissaAndAccuracy q (.inexact .gt)) = 2 * q + 1 := rfl
  constructor <;> rw [hhalves] <;> push_cast
  · linarith
  · linarith
  · exact ⟨fun h => Bool.noConfusion h, fun h => by linarith⟩

theorem represents_fraction (m : ℕ) {d : ℕ} (hd : 0 < d) :
    Represents (.ofMantissaAndAccuracy (m / d) (accuracyOfFraction (m % d) d)) (m / d) := by
  have hpos : (0 : ℚ) < d := by exact_mod_cast hd
  have hx : (m : ℚ) / d = (m / d : ℕ) + (m % d : ℕ) / d := by
    rw [div_eq_iff hpos.ne', add_mul, div_mul_cancel₀ _ hpos.ne']
    exact_mod_cast (Nat.div_add_mod' m d).symm
  have hlt : ((m % d : ℕ) : ℚ) / d < 1 := by
    rw [div_lt_one₀ hpos]
    exact_mod_cast Nat.mod_lt m hd
  rw [hx, accuracyOfFraction]
  split_ifs with hzero
  · rw [hzero, Nat.cast_zero, zero_div, add_zero]
    exact represents_exact (m / d)
  · have hne : (0 : ℚ) < (m % d : ℕ) / d :=
      div_pos (by exact_mod_cast Nat.pos_of_ne_zero hzero) hpos
    rcases Nat.lt_trichotomy (2 * (m % d)) d with hless | hequal | hmore
    · have hhalf : ((m % d : ℕ) : ℚ) / d < 1 / 2 := by
        rw [div_lt_div_iff₀ hpos two_pos]
        exact_mod_cast (by omega : m % d * 2 < 1 * d)
      rw [Nat.compare_eq_lt.mpr hless]
      exact represents_of_lt (by linarith) (by linarith)
    · have hhalf : ((m % d : ℕ) : ℚ) / d = 1 / 2 := by
        rw [div_eq_div_iff hpos.ne' two_ne_zero]
        exact_mod_cast (by omega : m % d * 2 = 1 * d)
      rw [Nat.compare_eq_eq.mpr hequal]
      exact represents_of_eq (by linarith)
    · have hhalf : (1 : ℚ) / 2 < (m % d : ℕ) / d := by
        rw [div_lt_div_iff₀ two_pos hpos]
        exact_mod_cast (by omega : 1 * d < m % d * 2)
      rw [Nat.compare_eq_gt.mpr hmore]
      exact represents_of_gt (by linarith) (by linarith)

theorem div_of_near {n : ℕ} {e : ℤ} (hdouble : IsDouble n e) {s₁ s₂ : Sign} {m₁ m₂ : ℕ} {k₁ k₂ : ℤ}
    {h₁ : 0 < m₁} {h₂ : 0 < m₂} (hx : Near n e ((m₁ * 2 ^ k₁) / (m₂ * 2 ^ k₂))) :
    UnpackedFloat.div Format.binary64 (.finite s₁ m₁ k₁ h₁) (.finite s₂ m₂ k₂ h₂) =
      .finite (s₁ / s₂) n e hdouble.pos := by
  simp only [UnpackedFloat.div, divCore]
  generalize hk : min (k₁ - k₂) (Format.binary64.targetExponent
    (totalExponent m₁ k₁ - totalExponent m₂ k₂)) = k
  generalize hshift : (k₁ - k₂ - k).toNat = shift
  simp only [targetExponent_eq, totalExponent] at hk
  have hvalue : (m₁ * 2 ^ k₁) / (m₂ * 2 ^ k₂) / 2 ^ k = ((m₁ <<< shift : ℕ) : ℚ) / m₂ := by
    have hpow : (2 : ℚ) ^ shift = 2 ^ k₁ / 2 ^ k₂ / 2 ^ k := by
      rw [← zpow_sub₀ two_ne_zero, ← zpow_sub₀ two_ne_zero, ← zpow_natCast]
      congr 1
      omega
    rw [Nat.shiftLeft_eq]
    push_cast
    rw [hpow]
    ring
  refine roundWithAccuracy_of_near hdouble hx ?_ (le_targetExponent ?_) (s₁ / s₂)
  · rw [hvalue]
    exact represents_fraction (m₁ <<< shift) h₂
  · by_cases hleast : k ≤ -1074
    · exact .inr hleast
    · left
      rw [Nat.le_div_iff_mul_le h₂, Nat.shiftLeft_eq]
      calc 2 ^ 52 * m₂ ≤ 2 ^ 52 * 2 ^ (m₂.log2 + 1) :=
            Nat.mul_le_mul_left (2 ^ 52) (Nat.le_of_lt Nat.lt_log2_self)
        _ = 2 ^ (52 + (m₂.log2 + 1)) := (pow_add 2 52 (m₂.log2 + 1)).symm
        _ ≤ 2 ^ (m₁.log2 + shift) := Nat.pow_le_pow_right two_pos (by omega)
        _ = 2 ^ m₁.log2 * 2 ^ shift := pow_add 2 m₁.log2 shift
        _ ≤ m₁ * 2 ^ shift := Nat.mul_le_mul_right (2 ^ shift) (Nat.log2_self_le h₁.ne')

/-! ## Numbers of moderate size -/

theorem exists_roundsTo {x : ℚ} (h : 0 ≤ x) : ∃ n, RoundsTo x n := by
  obtain ⟨m, hm⟩ := Int.eq_ofNat_of_zero_le (Rat.num_nonneg.mpr h)
  have hx : (m : ℚ) / x.den = x := by
    rw [← Int.cast_natCast, ← hm, Rat.num_div_den]
  exact ⟨_, hx ▸ (represents_fraction m x.den_pos).roundsTo⟩

/-- What the mantissas of all bits are rounded to is a double, maybe with one bit more. -/
theorem exists_near_of_roundsTo {x : ℚ} {n : ℕ} {t : ℤ} (hn : RoundsTo (x / 2 ^ t) n)
    (hlow : 2 ^ 52 ≤ x / 2 ^ t) (hhigh : x / 2 ^ t < 2 ^ 53) (hleast : -1074 ≤ t) (ht : t < 971) :
    ∃ n e, IsDouble n e ∧ Near n e x := by
  have hbounds : (n : ℚ) - 1 / 2 ≤ x / 2 ^ t ∧ x / 2 ^ t ≤ n + 1 / 2 := by
    rcases hn with hn | hn
    · exact ⟨hn.1.le, hn.2.le⟩
    · exact hn.2
  have hge : 2 ^ 52 ≤ n := by
    have : (2 : ℚ) ^ 52 < (n + 1 : ℕ) := by push_cast; linarith
    exact Nat.lt_succ_iff.mp (by exact_mod_cast this)
  have hle : n ≤ 2 ^ 53 := by
    have : (n : ℚ) < (2 ^ 53 + 1 : ℕ) := by push_cast; linarith
    exact Nat.lt_succ_iff.mp (by exact_mod_cast this)
  rcases Nat.lt_or_eq_of_le hle with hlt | rfl
  · refine ⟨n, t, ⟨by omega, hlt, hleast, by omega, .inl hge⟩, ?_⟩
    rw [Near, lowerEnd]
    split_ifs with hpower
    · have hn_eq : (n : ℚ) = 2 ^ 52 := by exact_mod_cast hpower.1
      rcases hn with hn | hn
      · exact .inl ⟨by linarith, hn.2⟩
      · exact .inr ⟨hn.1, by linarith, hn.2.2⟩
    · exact hn
  · -- The mantissa is rounded up to the next power of two, which is written one place higher.
    refine ⟨2 ^ 52, t + 1, ⟨by norm_num, by norm_num, by omega, by omega, .inl le_rfl⟩,
      .inr ⟨by norm_num, ?_⟩⟩
    have hhalf : x / 2 ^ (t + 1) = x / 2 ^ t / 2 := by
      rw [zpow_add_one₀ two_ne_zero, div_div]
    rw [lowerEnd, if_pos ⟨rfl, by omega⟩, hhalf]
    push_cast at hbounds ⊢
    constructor <;> linarith

theorem exists_near {x : ℚ} (hlow : 2 ^ (-1000 : ℤ) ≤ x) (hhigh : x ≤ 2 ^ (1000 : ℤ)) :
    ∃ n e, IsDouble n e ∧ Near n e x := by
  have hpos : 0 < x := (zpow_pos two_pos _).trans_le hlow
  have hlog : (2 : ℚ) ^ Int.log 2 x ≤ x := by exact_mod_cast Int.zpow_log_le_self one_lt_two hpos
  have hlog' : x < (2 : ℚ) ^ (Int.log 2 x + 1) := by
    exact_mod_cast Int.lt_zpow_succ_log_self one_lt_two x
  generalize Int.log 2 x = k at hlog hlog'
  have hleast : -1000 < k + 1 := (zpow_lt_zpow_iff_right₀ one_lt_two).mp (hlow.trans_lt hlog')
  have hgreatest : k ≤ 1000 := (zpow_le_zpow_iff_right₀ one_lt_two).mp (hlog.trans hhigh)
  have hplace : (0 : ℚ) < 2 ^ (k - 52) := zpow_pos two_pos _
  obtain ⟨n, hn⟩ := exists_roundsTo (div_pos hpos hplace).le
  refine exists_near_of_roundsTo hn ?_ ?_ (by omega) (by omega)
  · have hplaces : ((52 : ℕ) : ℤ) + (k - 52) = k := by omega
    rw [le_div_iff₀ hplace, ← zpow_natCast, ← zpow_add₀ two_ne_zero, hplaces]
    exact hlog
  · have hplaces : ((53 : ℕ) : ℤ) + (k - 52) = k + 1 := by omega
    rw [div_lt_iff₀ hplace, ← zpow_natCast, ← zpow_add₀ two_ne_zero, hplaces]
    exact hlog'

end DepthRaster.Numeric.Rounding
