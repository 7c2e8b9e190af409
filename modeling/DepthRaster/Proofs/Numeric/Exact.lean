import DepthRaster.Proofs.Numeric.Comparison
import DepthRaster.Proofs.Numeric.Decimals
/-!
# Exact doubles

A double is exactly a number when that is what its sign, mantissa and exponent come to. Sums,
differences, products and quotients of such doubles are what the exact result rounds to: the result
itself whenever double precision has it, and else a number that is hardly off, unless the result is
tiny or huge. Comparisons are always those of the numbers.
-/

namespace DepthRaster.Numeric

open Float.Model Float.Model.UnpackedFloat
open Packing Rounding

/-! ## Signs -/

def signed (sign : Sign) (x : ℚ) : ℚ :=
  match sign with
  | .negative => -x
  | .positive => x

theorem cast_apply (sign : Sign) (n : ℕ) : ((sign.apply n : ℤ) : ℚ) = signed sign n := by
  cases sign with
  | negative => exact Int.cast_neg _
  | positive => rfl

theorem apply_neg (sign : Sign) (k : ℤ) : (-sign).apply k = -sign.apply k := by
  cases sign with
  | negative => exact (neg_neg k).symm
  | positive => rfl

theorem signed_mul (sign : Sign) (x y : ℚ) : signed sign (x * y) = signed sign x * y := by
  cases sign with
  | negative => exact (neg_mul x y).symm
  | positive => rfl

theorem abs_signed (sign : Sign) {x : ℚ} (h : 0 ≤ x) : |signed sign x| = x := by
  cases sign with
  | negative => exact (abs_neg x).trans (abs_of_nonneg h)
  | positive => exact abs_of_nonneg h

theorem abs_signed_sub_signed (sign : Sign) (x y : ℚ) :
    |signed sign x - signed sign y| = |x - y| := by
  cases sign with
  | negative => rw [signed, signed, neg_sub_neg, abs_sub_comm]
  | positive => rfl

theorem signed_neg (sign : Sign) (x : ℚ) : signed (-sign) x = -signed sign x := by
  cases sign with
  | negative => exact (neg_neg x).symm
  | positive => rfl

theorem signed_mul_signed (s t : Sign) (x y : ℚ) :
    signed s x * signed t y = signed (s * t) (x * y) := by
  cases s with
  | negative =>
      cases t with
      | negative => exact neg_mul_neg x y
      | positive => exact neg_mul x y
  | positive =>
      cases t with
      | negative => exact mul_neg x y
      | positive => rfl

theorem signed_div_signed (s t : Sign) (x y : ℚ) :
    signed s x / signed t y = signed (s / t) (x / y) := by
  cases s with
  | negative =>
      cases t with
      | negative => exact neg_div_neg_eq x y
      | positive => exact neg_div y x
  | positive =>
      cases t with
      | negative => exact div_neg x
      | positive => rfl

/-! ## Numbers that double precision has -/

/-- Whether double precision has a number. -/
def Representable (q : ℚ) : Prop := q = 0 ∨ ∃ n e, IsDouble n e ∧ |q| = n * 2 ^ e

theorem representable_of_lt {m : ℕ} (h : m < 2 ^ 53) {j : ℤ} (hlow : -1022 ≤ j) (hhigh : j ≤ 971)
    {q : ℚ} (hq : |q| = m * 2 ^ j) : Representable q := by
  rcases Nat.eq_zero_or_pos m with rfl | hpos
  · exact .inl (abs_eq_zero.mp (by rw [hq, Nat.cast_zero, zero_mul]))
  · obtain ⟨n, e, hdouble, -, hvalue⟩ := Decimals.exists_isDouble hpos h hlow hhigh
    exact .inr ⟨n, e, hdouble, hq.trans hvalue.symm⟩

theorem representable_intCast {k : ℤ} (h : k.natAbs < 2 ^ 53) : Representable k := by
  refine representable_of_lt h (j := 0) (by norm_num) (by norm_num) ?_
  rw [zpow_zero, mul_one, Nat.cast_natAbs, Int.cast_abs]

theorem representable_half {k : ℤ} (h : k.natAbs < 2 ^ 53) : Representable (k / 2) := by
  refine representable_of_lt h (j := -1) (by norm_num) (by norm_num) ?_
  rw [abs_div, abs_two, Nat.cast_natAbs, Int.cast_abs, zpow_neg_one, div_eq_mul_inv]

/-! ## What numbers round to -/

/-- Whether double precision rounds a number to another. -/
inductive Rounds : ℚ → ℚ → Prop
  | zero : Rounds 0 0
  | finite (sign : Sign) {x : ℚ} {n : ℕ} {e : ℤ} (hx : 0 < x) (hdouble : IsDouble n e)
      (hnear : Near n e x) : Rounds (signed sign x) (signed sign (n * 2 ^ e))

/-- Whether a number is far from the ends of double precision, if it is not zero. -/
def Ordinary (q : ℚ) : Prop := q ≠ 0 → 2 ^ (-1000 : ℤ) ≤ |q| ∧ |q| ≤ 2 ^ (1000 : ℤ)

theorem mul_two_zpow_pos {m : ℕ} (hm : 0 < m) (k : ℤ) : (0 : ℚ) < m * 2 ^ k :=
  mul_pos (by exact_mod_cast hm) (zpow_pos two_pos k)

theorem signed_ne_zero (sign : Sign) {x : ℚ} (hx : 0 < x) : signed sign x ≠ 0 := by
  rw [← abs_ne_zero, abs_signed sign hx.le]
  exact hx.ne'

theorem signed_nonneg_iff (sign : Sign) {x : ℚ} (hx : 0 < x) :
    0 ≤ signed sign x ↔ sign = .positive := by
  cases sign with
  | negative => exact iff_of_false (neg_neg_of_pos hx).not_ge Sign.noConfusion
  | positive => exact iff_of_true hx.le rfl

theorem signed_inj {s t : Sign} {x y : ℚ} (hx : 0 < x) (hy : 0 < y)
    (h : signed s x = signed t y) : s = t ∧ x = y := by
  have habs : x = y := by rw [← abs_signed s hx.le, h, abs_signed t hy.le]
  have hsign : s = .positive ↔ t = .positive := by
    rw [← signed_nonneg_iff s hx, h, signed_nonneg_iff t hy]
  refine ⟨?_, habs⟩
  cases s <;> cases t <;> simp at hsign ⊢

theorem exists_signed (q : ℚ) : ∃ sign, signed sign |q| = q := by
  rcases abs_choice q with h | h
  · exact ⟨.positive, h⟩
  · exact ⟨.negative, neg_eq_iff_eq_neg.mpr h⟩

theorem Representable.rounds {q : ℚ} (h : Representable q) : Rounds q q := by
  rcases h with rfl | ⟨n, e, hdouble, hvalue⟩
  · exact .zero
  · obtain ⟨sign, hsign⟩ := exists_signed q
    rw [hvalue] at hsign
    rw [← hsign]
    exact .finite sign (mul_two_zpow_pos hdouble.pos e) hdouble (near_self n e)

theorem Ordinary.exists_rounds {q : ℚ} (h : Ordinary q) : ∃ r, Rounds q r := by
  rcases eq_or_ne q 0 with rfl | hne
  · exact ⟨0, .zero⟩
  · obtain ⟨sign, hsign⟩ := exists_signed q
    obtain ⟨hlow, hhigh⟩ := h hne
    obtain ⟨n, e, hdouble, hnear⟩ := exists_near hlow hhigh
    rw [← hsign]
    exact ⟨_, .finite sign (abs_pos.mpr hne) hdouble hnear⟩

namespace Rounds

variable {q r : ℚ}

theorem eq_zero (h : Rounds 0 r) : r = 0 := by
  generalize hq : (0 : ℚ) = q at h
  cases h with
  | zero => rfl
  | finite sign hx _ _ => exact absurd hq.symm (signed_ne_zero sign hx)

theorem exists_near {sign : Sign} {x : ℚ} (hx : 0 < x) (h : Rounds (signed sign x) r) :
    ∃ n e, IsDouble n e ∧ Near n e x ∧ r = signed sign (n * 2 ^ e) := by
  generalize hq : signed sign x = q at h
  cases h with
  | zero => exact absurd hq (signed_ne_zero sign hx)
  | finite t hy hdouble hnear =>
      obtain ⟨rfl, rfl⟩ := signed_inj hx hy hq
      exact ⟨_, _, hdouble, hnear, rfl⟩

theorem eq_self {sign : Sign} {n : ℕ} {e : ℤ} (hn : IsDouble n e)
    (h : Rounds (signed sign (n * 2 ^ e)) r) : r = signed sign (n * 2 ^ e) := by
  obtain ⟨m, f, hm, hnear, rfl⟩ := h.exists_near (mul_two_zpow_pos hn.pos e)
  have hrounded := round_of_near hm hn.pos hnear .positive
  rw [round_of_near hn hn.pos (near_self n e)] at hrounded
  injection hrounded with _ hmantissa hexponent
  rw [hmantissa, hexponent]

theorem nonneg_iff (h : Rounds q r) : 0 ≤ r ↔ 0 ≤ q := by
  cases h with
  | zero => rfl
  | finite sign hx hdouble _ =>
      rw [signed_nonneg_iff sign (mul_two_zpow_pos hdouble.pos _), signed_nonneg_iff sign hx]

/-- Rounding changes a number by a tiny part of it. -/
theorem error (h : Rounds q r) (hq : Ordinary q) : |r - q| ≤ |q| / 2 ^ 52 := by
  cases h with
  | zero => simp
  | finite sign hx hdouble hnear =>
      have hlow := (hq (signed_ne_zero sign hx)).1
      rw [abs_signed sign hx.le] at hlow ⊢
      rw [abs_signed_sub_signed]
      exact hnear.error hdouble hlow

end Rounds

/-- The number that an unpacked double of the right form comes to. -/
inductive Means : UnpackedFloat → ℚ → Prop
  | zero (sign : Sign) : Means (.zero sign) 0
  | finite (sign : Sign) {n : ℕ} {e : ℤ} (h : IsDouble n e) :
      Means (.finite sign n e h.pos) (signed sign (n * 2 ^ e))

namespace Means

variable {u v : UnpackedFloat} {p q r : ℚ}

theorem of_rounds {x : ℚ} {sign : Sign} (hx : 0 < x) (h : Rounds (signed sign x) r)
    (hu : ∀ {n e} (hdouble : IsDouble n e), Near n e x → u = .finite sign n e hdouble.pos) :
    Means u r := by
  obtain ⟨n, e, hdouble, hnear, rfl⟩ := h.exists_near hx
  rw [hu hdouble hnear]
  exact .finite sign hdouble

theorem round {m : ℕ} {k : ℤ} {sign : Sign} (hm : 0 < m) (h : Rounds (signed sign (m * 2 ^ k)) r) :
    Means (UnpackedFloat.round Format.binary64 sign m k) r :=
  of_rounds (mul_two_zpow_pos hm k) h fun hdouble hnear => round_of_near hdouble hm hnear sign

theorem normalize {m k : ℤ} (h : Rounds (m * 2 ^ k) r) (zeroSign : Sign) :
    Means (UnpackedFloat.normalize Format.binary64 m k zeroSign) r := by
  rcases Int.lt_trichotomy m 0 with hneg | rfl | hpos
  · have hcompare : compare m 0 = .lt := Int.compare_eq_lt.mpr hneg
    have hvalue : (m : ℚ) * 2 ^ k = signed .negative ((-m).toNat * 2 ^ k) := by
      rw [signed_mul, ← cast_apply]
      congr 2
      simp only [Sign.apply]
      omega
    rw [UnpackedFloat.normalize, hcompare]
    rw [hvalue] at h
    exact round (by omega) h
  · rw [Int.cast_zero, zero_mul] at h
    rw [h.eq_zero]
    exact .zero zeroSign
  · have hcompare : compare m 0 = .gt := Int.compare_eq_gt.mpr hpos
    have hvalue : (m : ℚ) * 2 ^ k = signed .positive (m.toNat * 2 ^ k) := by
      rw [signed_mul, ← cast_apply]
      congr 2
      simp only [Sign.apply]
      omega
    rw [UnpackedFloat.normalize, hcompare]
    rw [hvalue] at h
    exact round (by omega) h

/-! ## Operations -/

theorem signed_decreaseExponent (sign : Sign) (m : ℕ) {e target : ℤ} (h : target ≤ e) :
    signed sign (m * 2 ^ e) =
      ((sign.apply (decreaseExponent m e target).1 : ℤ) : ℚ) * 2 ^ target := by
  have hexponent : e = (e - target).toNat + target := by omega
  rw [cast_apply, ← signed_mul, decreaseExponent, Nat.shiftLeft_eq]
  conv_lhs => rw [hexponent, zpow_add₀ two_ne_zero, zpow_natCast]
  push_cast
  rw [mul_assoc]

/-- A difference is the sum with the negated double, also for zeros and infinities. -/
theorem unpacked_sub (format : Format) (u v : UnpackedFloat) :
    UnpackedFloat.sub format u v = UnpackedFloat.add format u v.neg := by
  cases u with
  | notANumber => rfl
  | infinity s => cases v <;> rfl
  | zero s => cases v <;> rfl
  | finite s m e hm =>
      cases v with
      | finite t n f hn =>
          simp only [UnpackedFloat.sub, UnpackedFloat.add, UnpackedFloat.neg, apply_neg,
            sub_eq_add_neg]
      | _ => rfl

theorem add (hu : Means u p) (hv : Means v q) (h : Rounds (p + q) r) :
    Means (UnpackedFloat.add Format.binary64 u v) r := by
  cases hu with
  | zero s =>
      rw [zero_add] at h
      cases hv with
      | zero t =>
          rw [h.eq_zero]
          cases s <;> cases t <;> exact .zero _
      | finite t hn =>
          rw [h.eq_self hn]
          exact .finite t hn
  | @finite s m e hm =>
      cases hv with
      | zero t =>
          rw [add_zero] at h
          rw [h.eq_self hm]
          exact .finite s hm
      | @finite t n f hn =>
          rw [signed_decreaseExponent s m (min_le_left e f),
            signed_decreaseExponent t n (min_le_right e f), ← add_mul, ← Int.cast_add] at h
          exact normalize h .positive

theorem neg (hu : Means u p) : Means u.neg (-p) := by
  cases hu with
  | zero sign =>
      rw [neg_zero]
      exact .zero (-sign)
  | finite sign h =>
      rw [← signed_neg]
      exact .finite (-sign) h

theorem sub (hu : Means u p) (hv : Means v q) (h : Rounds (p - q) r) :
    Means (UnpackedFloat.sub Format.binary64 u v) r := by
  rw [unpacked_sub]
  rw [sub_eq_add_neg] at h
  exact add hu hv.neg h

theorem mul (hu : Means u p) (hv : Means v q) (h : Rounds (p * q) r) :
    Means (UnpackedFloat.mul Format.binary64 u v) r := by
  cases hu with
  | zero s =>
      rw [zero_mul] at h
      rw [h.eq_zero]
      cases hv with
      | zero t => exact .zero _
      | finite t hn => exact .zero _
  | @finite s m e hm =>
      cases hv with
      | zero t =>
          rw [mul_zero] at h
          rw [h.eq_zero]
          exact .zero _
      | @finite t n f hn =>
          have hsize : 2 ^ 52 ≤ m * n ∨ e + f ≤ -1074 := by
            rcases hm.normal with hnormal | rfl
            · exact .inl (Nat.le_trans hnormal (Nat.le_mul_of_pos_right m hn.pos))
            · rcases hn.normal with hnormal | rfl
              · exact .inl (Nat.le_trans hnormal (Nat.le_mul_of_pos_left n hm.pos))
              · exact .inr (by norm_num)
          rw [signed_mul_signed] at h
          exact of_rounds (mul_pos (mul_two_zpow_pos hm.pos e) (mul_two_zpow_pos hn.pos f)) h
            fun hdouble hnear => mul_of_near hdouble hsize hnear

theorem div (hu : Means u p) (hv : Means v q) (hq : q ≠ 0) (h : Rounds (p / q) r) :
    Means (UnpackedFloat.div Format.binary64 u v) r := by
  cases hv with
  | zero t => exact absurd rfl hq
  | @finite t n f hn =>
      cases hu with
      | zero s =>
          rw [zero_div] at h
          rw [h.eq_zero]
          exact .zero _
      | @finite s m e hm =>
          rw [signed_div_signed] at h
          exact of_rounds (div_pos (mul_two_zpow_pos hm.pos e) (mul_two_zpow_pos hn.pos f)) h
            fun hdouble hnear => div_of_near hdouble hnear

theorem pack (hu : Means u p) : Means (Float.Model.pack u).unpack p := by
  cases hu with
  | zero sign => cases sign <;> exact .zero _
  | finite sign hdouble =>
      rw [unpack_pack hdouble]
      exact .finite sign hdouble

/-! ## Comparisons -/

/-- Canonical positive doubles are compared by their exponents first. -/
theorem compare_then {m n : ℕ} {e f : ℤ} (hm : IsDouble m e) (hn : IsDouble n f) :
    (compare e f).then (compare m n) = compare ((m : ℚ) * 2 ^ e) (n * 2 ^ f) := by
  have hlt {m n : ℕ} {e f : ℤ} (hm : IsDouble m e) (hn : IsDouble n f) (h : e < f) :
      (m : ℚ) * 2 ^ e < n * 2 ^ f := by
    have hnormal := hn.normal.resolve_right (by have := hm.least; omega)
    have hmantissa : (m : ℚ) < 2 * n := by exact_mod_cast (by have := hm.lt; omega : m < 2 * n)
    calc (m : ℚ) * 2 ^ e < 2 * n * 2 ^ e := mul_lt_mul_of_pos_right hmantissa (zpow_pos two_pos e)
      _ = n * 2 ^ (e + 1) := by rw [zpow_add_one₀ two_ne_zero]; ring
      _ ≤ n * 2 ^ f := by gcongr <;> [norm_num; omega]
  rcases Int.lt_trichotomy e f with h | rfl | h
  · rw [Int.compare_eq_lt.mpr h, compare_lt_iff_lt.mpr (hlt hm hn h)]
    rfl
  · have hpos : (0 : ℚ) < 2 ^ e := zpow_pos two_pos e
    rw [Int.compare_eq_eq.mpr rfl]
    change compare m n = _
    rcases Nat.lt_trichotomy m n with h | rfl | h
    · rw [Nat.compare_eq_lt.mpr h, eq_comm, compare_lt_iff_lt]
      exact mul_lt_mul_of_pos_right (by exact_mod_cast h) hpos
    · rw [Nat.compare_eq_eq.mpr rfl, eq_comm, compare_eq_iff_eq]
    · rw [Nat.compare_eq_gt.mpr h, eq_comm, compare_gt_iff_gt]
      exact mul_lt_mul_of_pos_right (by exact_mod_cast h) hpos
  · rw [Int.compare_eq_gt.mpr h, compare_gt_iff_gt.mpr (hlt hn hm h)]
    rfl

theorem compare_neg_neg (x y : ℚ) : compare (-x) (-y) = (compare x y).swap := by
  rcases lt_trichotomy x y with h | rfl | h
  · rw [compare_lt_iff_lt.mpr h, compare_gt_iff_gt.mpr (neg_lt_neg h)]
    rfl
  · rw [compare_eq_iff_eq.mpr rfl, compare_eq_iff_eq.mpr rfl]
    rfl
  · rw [compare_gt_iff_gt.mpr h, compare_lt_iff_lt.mpr (neg_lt_neg h)]
    rfl

/-- Comparing doubles compares the numbers. -/
theorem compare_eq (hu : Means u p) (hv : Means v q) :
    UnpackedFloat.compare u v = some (compare p q) := by
  have hpos {n : ℕ} {e : ℤ} (h : IsDouble n e) := mul_two_zpow_pos h.pos e
  cases hu with
  | zero s =>
      cases hv with
      | zero t => exact congrArg some (compare_eq_iff_eq.mpr rfl).symm
      | finite t hn =>
          cases t with
          | negative => exact congrArg some (compare_gt_iff_gt.mpr (neg_neg_of_pos (hpos hn))).symm
          | positive => exact congrArg some (compare_lt_iff_lt.mpr (hpos hn)).symm
  | finite s hm =>
      cases hv with
      | zero t =>
          cases s with
          | negative => exact congrArg some (compare_lt_iff_lt.mpr (neg_neg_of_pos (hpos hm))).symm
          | positive => exact congrArg some (compare_gt_iff_gt.mpr (hpos hm)).symm
      | finite t hn =>
          cases s with
          | negative =>
              cases t with
              | negative =>
                  simp only [signed, compare_neg_neg, ← compare_then hm hn]
                  rfl
              | positive =>
                  have hlt := (neg_neg_of_pos (hpos hm)).trans (hpos hn)
                  exact congrArg some (compare_lt_iff_lt.mpr hlt).symm
          | positive =>
              cases t with
              | negative =>
                  have hgt := (neg_neg_of_pos (hpos hn)).trans (hpos hm)
                  exact congrArg some (compare_gt_iff_gt.mpr hgt).symm
              | positive => exact congrArg some (compare_then hm hn)

theorem eq_of_compare (hu : Means u p) (hv : Means v q)
    (h : UnpackedFloat.compare u v = some .eq) (hq : q ≠ 0) : u = v := by
  cases hv with
  | zero t => exact absurd rfl hq
  | @finite t n f hn =>
      cases hu with
      | zero s => cases t <;> simp [UnpackedFloat.compare] at h
      | @finite s m e hm =>
          have hfields : s = t ∧ (compare e f).then (compare m n) = .eq := by
            cases s <;> cases t <;> simp_all [UnpackedFloat.compare]
          obtain ⟨rfl, hthen⟩ := hfields
          obtain ⟨hexponent, hmantissa⟩ := Ordering.then_eq_eq.mp hthen
          obtain rfl := Int.compare_eq_eq.mp hexponent
          obtain rfl := Nat.compare_eq_eq.mp hmantissa
          rfl

theorem unique (hu : Means u q) (hv : Means v q) (hq : q ≠ 0) : u = v :=
  hu.eq_of_compare hv (by rw [compare_eq hu hv, compare_eq_iff_eq.mpr rfl]) hq

end Means

/-! ## Doubles -/

def IsExactly (x : Float) (q : ℚ) : Prop := Means x.toModel.unpack q

namespace IsExactly

variable {x y : Float} {p q r : ℚ}

theorem add_rounds (hx : IsExactly x p) (hy : IsExactly y q) (h : Rounds (p + q) r) :
    IsExactly (x + y) r :=
  (Means.add hx hy h).pack

theorem mul_rounds (hx : IsExactly x p) (hy : IsExactly y q) (h : Rounds (p * q) r) :
    IsExactly (x * y) r :=
  (Means.mul hx hy h).pack

theorem div_rounds (hx : IsExactly x p) (hy : IsExactly y q) (hq : q ≠ 0)
    (h : Rounds (p / q) r) : IsExactly (x / y) r :=
  (Means.div hx hy hq h).pack

theorem add (hx : IsExactly x p) (hy : IsExactly y q) (h : Representable (p + q)) :
    IsExactly (x + y) (p + q) :=
  hx.add_rounds hy h.rounds

theorem sub (hx : IsExactly x p) (hy : IsExactly y q) (h : Representable (p - q)) :
    IsExactly (x - y) (p - q) :=
  (Means.sub hx hy h.rounds).pack

theorem mul (hx : IsExactly x p) (hy : IsExactly y q) (h : Representable (p * q)) :
    IsExactly (x * y) (p * q) :=
  hx.mul_rounds hy h.rounds

theorem div (hx : IsExactly x p) (hy : IsExactly y q) (hq : q ≠ 0) (h : Representable (p / q)) :
    IsExactly (x / y) (p / q) :=
  hx.div_rounds hy hq h.rounds

theorem lt_iff (hx : IsExactly x p) (hy : IsExactly y q) : x < y ↔ p < q := by
  rw [float_lt_iff, UnpackedFloat.lt, Means.compare_eq hx hy, beq_iff_eq, Option.some.injEq,
    compare_lt_iff_lt]

theorem le_iff (hx : IsExactly x p) (hy : IsExactly y q) : x ≤ y ↔ p ≤ q := by
  rw [float_le_iff, UnpackedFloat.le, Means.compare_eq hx hy, Option.any_some,
    Ordering.isLE_iff_ne_gt]
  exact compare_le_iff_le

theorem unique (hx : IsExactly x p) (hy : IsExactly y p) (hp : p ≠ 0) : x = y := by
  have hmodel : x.toModel = y.toModel := by
    rw [← pack_unpack x.toModel, ← pack_unpack y.toModel, Means.unique hx hy hp]
  exact congrArg Float.ofModel hmodel

theorem neg (hx : IsExactly x p) : IsExactly (-x) (-p) :=
  (Means.neg hx).pack

theorem ofNat {n : ℕ} (h : n < 2 ^ 53) : IsExactly (Float.ofNat n) n := by
  rcases Nat.eq_zero_or_pos n with rfl | hpos
  · rw [Nat.cast_zero]
    exact .zero .positive
  · obtain ⟨m, e, hdouble, -, hvalue⟩ :=
      Decimals.exists_isDouble hpos h (j := 0) (by decide) (by decide)
    have hnear : Near m e (n * 10 ^ (0 : ℤ)) := by
      rw [zpow_zero] at hvalue ⊢
      exact hvalue ▸ near_self m e
    have hmodel := Decimals.ofScientific_of_near hdouble hpos.ne' (by omega) (by omega) hnear
    change IsExactly (Float.ofScientific n (decide ((0 : ℤ) < 0)) (0 : ℤ).natAbs) n
    rw [hmodel, ← mul_one (n : ℚ), ← zpow_zero 2, ← hvalue]
    exact (Means.finite .positive hdouble).pack

theorem ofInt {n : ℤ} (h : n.natAbs < 2 ^ 53) : IsExactly (Float.ofInt n) n := by
  cases n with
  | ofNat n => exact ofNat h
  | negSucc n =>
      rw [Int.cast_negSucc]
      exact (ofNat h).neg

/-- A quotient has the sign that it should have, unless it is tiny or huge. -/
theorem zero_le_div_iff (hx : IsExactly x p) (hy : IsExactly y q) (hq : 0 < q)
    (hsize : Ordinary (p / q)) : Float.ofInt 0 ≤ x / y ↔ 0 ≤ p := by
  obtain ⟨r, hr⟩ := hsize.exists_rounds
  have hzero : IsExactly (Float.ofInt 0) 0 := by simpa using ofInt (n := 0) (by decide)
  rw [hzero.le_iff (hx.div_rounds hy hq.ne' hr), hr.nonneg_iff, le_div_iff₀ hq, zero_mul]

end IsExactly

end DepthRaster.Numeric
