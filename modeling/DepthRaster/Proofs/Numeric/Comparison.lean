import DepthRaster.Numeric.Scalar
import Mathlib.Algebra.Group.Nat.Defs
/-!
# Comparing doubles

A positive double is not at most zero, and any double is less than one or at least one unless it is
no number. What is no number stays so as a divisor and is above nothing.
-/

namespace DepthRaster.Numeric

open Float.Model

theorem float_le_iff {x y : Float} :
    x ≤ y ↔ x.toModel.unpack.le y.toModel.unpack = true := by
  change decide (x.toModel ≤ y.toModel) = true ↔ _
  exact decide_eq_true_iff

theorem float_lt_iff {x y : Float} :
    x < y ↔ x.toModel.unpack.lt y.toModel.unpack = true := by
  change decide (x.toModel < y.toModel) = true ↔ _
  exact decide_eq_true_iff

theorem unpack_zero : (0 : Float).toModel.unpack = .zero .positive := rfl

theorem unpack_one :
    (1 : Float).toModel.unpack = .finite .positive (2 ^ 52) (-52) (by decide) :=
  rfl

theorem unpack_eq_notANumber {x : Float} (h : x.isNaN = true) :
    x.toModel.unpack = .notANumber := by
  change x.toModel.unpack.isNaN = true at h
  cases hx : x.toModel.unpack with
  | notANumber => rfl
  | infinity sign => exact absurd h (by rw [hx]; exact Bool.false_ne_true)
  | zero sign => exact absurd h (by rw [hx]; exact Bool.false_ne_true)
  | finite sign mantissa exponent pos => exact absurd h (by rw [hx]; exact Bool.false_ne_true)

theorem isNaN_eq_false_of_isFinite {x : Float} (h : x.isFinite = true) : x.isNaN = false := by
  change x.toModel.unpack.isFinite = true at h
  change x.toModel.unpack.isNaN = false
  cases hx : x.toModel.unpack with
  | notANumber => exact absurd h (by rw [hx]; exact Bool.false_ne_true)
  | infinity sign => rfl
  | zero sign => rfl
  | finite sign mantissa exponent pos => rfl

/-! ## What is no number -/

private theorem compare_notANumber (x : UnpackedFloat) : x.compare .notANumber = none := by
  cases x <;> rfl

private theorem div_notANumber (x : UnpackedFloat) :
    UnpackedFloat.div Format.binary64 x .notANumber = .notANumber := by
  cases x <;> rfl

theorem isNaN_div (x : Float) {y : Float} (h : y.isNaN = true) : (x / y).isNaN = true := by
  change (pack (UnpackedFloat.div Format.binary64 x.toModel.unpack y.toModel.unpack)).isNaN = true
  rw [unpack_eq_notANumber h, div_notANumber]
  rfl

theorem not_le_of_isNaN (x : Float) {y : Float} (h : y.isNaN = true) : ¬ x ≤ y := by
  rw [float_le_iff, unpack_eq_notANumber h, UnpackedFloat.le, compare_notANumber]
  exact Bool.false_ne_true

/-! ## Numbers -/

private theorem lt_or_le_positive {m n : Nat} {e f : Int} (hm : 0 < m) (hn : 0 < n) :
    (UnpackedFloat.finite .positive m e hm).lt (.finite .positive n f hn) = true ∨
      (UnpackedFloat.finite .positive n f hn).le (.finite .positive m e hm) = true := by
  have hswap : (compare f e).then (compare n m) = ((compare e f).then (compare m n)).swap := by
    rw [Ordering.swap_then, Int.compare_swap, Nat.compare_swap]
  change (some ((compare e f).then (compare m n)) == some .lt) = true ∨
    (some ((compare f e).then (compare n m))).any Ordering.isLE = true
  rw [hswap]
  cases (compare e f).then (compare m n) with
  | lt => exact .inl rfl
  | eq => exact .inr rfl
  | gt => exact .inr rfl

theorem not_le_zero_of_pos {x : Float} (h : 0 < x) : ¬ x ≤ 0 := by
  rw [float_lt_iff, unpack_zero] at h
  rw [float_le_iff, unpack_zero]
  cases hx : x.toModel.unpack with
  | notANumber => decide
  | infinity sign =>
      rw [hx] at h
      cases sign with
      | positive => decide
      | negative => exact absurd h (by decide)
  | zero sign =>
      rw [hx] at h
      exact absurd h (by cases sign <;> decide)
  | finite sign mantissa exponent pos =>
      rw [hx] at h
      cases sign with
      | positive => exact Bool.false_ne_true
      | negative => exact absurd h Bool.false_ne_true

theorem pos_of_not_le_zero {x : Float} (hfinite : x.isFinite = true) (h : ¬ x ≤ 0) : 0 < x := by
  rw [float_le_iff, unpack_zero] at h
  rw [float_lt_iff, unpack_zero]
  change x.toModel.unpack.isFinite = true at hfinite
  cases hx : x.toModel.unpack with
  | notANumber => exact absurd hfinite (by rw [hx]; exact Bool.false_ne_true)
  | infinity sign => exact absurd hfinite (by rw [hx]; exact Bool.false_ne_true)
  | zero sign =>
      rw [hx] at h
      exact absurd (by cases sign <;> decide) h
  | finite sign mantissa exponent pos =>
      rw [hx] at h
      cases sign with
      | positive => rfl
      | negative => exact absurd rfl h

theorem isNaN_of_not_lt_of_not_le {x : Float} (hlt : ¬ x < 1) (hle : ¬ 1 ≤ x) :
    x.isNaN = true := by
  rw [float_lt_iff, unpack_one] at hlt
  rw [float_le_iff, unpack_one] at hle
  change x.toModel.unpack.isNaN = true
  cases hx : x.toModel.unpack with
  | notANumber => rfl
  | infinity sign =>
      rw [hx] at hlt hle
      cases sign with
      | positive => exact absurd rfl hle
      | negative => exact absurd rfl hlt
  | zero sign =>
      rw [hx] at hlt
      exact absurd rfl hlt
  | finite sign mantissa exponent pos =>
      rw [hx] at hlt hle
      cases sign with
      | positive => exact absurd (lt_or_le_positive pos _) (not_or.mpr ⟨hlt, hle⟩)
      | negative => exact absurd rfl hlt

end DepthRaster.Numeric
