import DepthRaster.Numeric.Written
import DepthRaster.Proofs.Numeric.Digits
import Mathlib.Algebra.Order.Field.Rat
import Mathlib.Tactic.NormNum
import Mathlib.Tactic.Positivity
import Mathlib.Tactic.Ring
/-!
# Written numbers as numerals

However its digits are laid out, a literal is a numeral with the value of its decimal.
-/

namespace DepthRaster.Numeric.Written

open Whole (isDigit ofDigits)

/-! ## Numerals -/

/-- Whether digits begin with zero only when that is all. -/
structure IsWhole (ds : List Char) : Prop where
  ne_nil : ds ≠ []
  digits : ∀ c ∈ ds, isDigit c = true
  head : ds.head? = some '0' → ds = ['0']

/-- Whether a text is a whole number times a power of ten, with a point or an exponent. -/
inductive IsNumeral : List Char → ℕ → ℤ → Prop
  | point {whole fraction : List Char} (hwhole : IsWhole whole) (hne : fraction ≠ [])
      (hfraction : ∀ c ∈ fraction, isDigit c = true) :
      IsNumeral (whole ++ '.' :: fraction) (ofDigits (whole ++ fraction)) (-fraction.length)
  | power {whole : List Char} (hwhole : IsWhole whole) (k : ℤ) :
      IsNumeral (whole ++ 'e' :: (toString k).toList) (ofDigits whole) k
  | pointPower {whole fraction : List Char} (hwhole : IsWhole whole) (hne : fraction ≠ [])
      (hfraction : ∀ c ∈ fraction, isDigit c = true) (k : ℤ) :
      IsNumeral (whole ++ '.' :: (fraction ++ 'e' :: (toString k).toList))
        (ofDigits (whole ++ fraction)) (k - fraction.length)

/-! ## Layouts -/

structure IsLeading (ds : List Char) : Prop where
  ne_nil : ds ≠ []
  digits : ∀ c ∈ ds, isDigit c = true
  head : ds.head? ≠ some '0'

theorem IsLeading.isWhole_append {ds : List Char} (h : IsLeading ds) {rest : List Char}
    (hrest : ∀ c ∈ rest, isDigit c = true) : IsWhole (ds ++ rest) where
  ne_nil := List.append_ne_nil_of_left_ne_nil h.ne_nil rest
  digits c hc := (List.mem_append.mp hc).elim (h.digits c) (hrest c)
  head hzero := by
    rw [List.head?_append_of_ne_nil ds h.ne_nil] at hzero
    exact absurd hzero h.head

theorem IsLeading.isWhole {ds : List Char} (h : IsLeading ds) : IsWhole ds :=
  ⟨h.ne_nil, h.digits, fun hzero => absurd hzero h.head⟩

theorem IsLeading.take {ds : List Char} (h : IsLeading ds) {n : ℕ} (hn : 0 < n) :
    IsLeading (ds.take n) where
  ne_nil := by
    rw [Ne, List.take_eq_nil_iff, not_or]
    exact ⟨hn.ne', h.ne_nil⟩
  digits c hc := h.digits c (List.mem_of_mem_take hc)
  head := by
    rw [List.head?_take, if_neg hn.ne']
    exact h.head

theorem isDigit_of_mem_zeros {n : ℕ} {c : Char} (h : c ∈ List.replicate n '0') :
    isDigit c = true := by
  rw [List.eq_of_mem_replicate h]
  decide

def HasValue (cs : List Char) (x : ℚ) : Prop := ∃ m k, IsNumeral cs m k ∧ (m : ℚ) * 10 ^ k = x

theorem hasValue_positional {ds : List Char} (h : IsLeading ds) (e : ℤ) :
    HasValue (positional true ds e) (ofDigits ds * 10 ^ e) := by
  have hten : (10 : ℚ) ≠ 0 := by norm_num
  by_cases hwhole : 0 ≤ e
  · obtain ⟨e, rfl⟩ := Int.eq_ofNat_of_zero_le hwhole
    have htext : positional true ds e = ds ++ List.replicate e '0' ++ '.' :: ['0'] := by
      rw [positional, if_pos hwhole]
      rfl
    have hzero : ofDigits ['0'] = 0 := by decide
    rw [htext]
    refine ⟨_, _, .point (h.isWhole_append fun c hc => isDigit_of_mem_zeros hc)
      (List.cons_ne_nil '0' []) (List.forall_mem_singleton.mpr rfl), ?_⟩
    rw [Whole.ofDigits_append, Whole.ofDigits_append, Whole.ofDigits_replicate_zero, hzero,
      List.length_replicate, List.length_singleton, Nat.add_zero, Nat.add_zero, pow_one]
    push_cast
    rw [zpow_neg_one, zpow_natCast, mul_inv_cancel_right₀ hten]
  · by_cases hpoint : 0 < ds.length + e
    · obtain ⟨n, hn⟩ := Int.eq_ofNat_of_zero_le hpoint.le
      have htext : positional true ds e = ds.take n ++ '.' :: ds.drop n := by
        rw [positional, if_neg hwhole, if_pos hpoint, hn]
        rfl
      have hlength : (ds.drop n).length = ds.length - n := List.length_drop
      have hdrop : ds.drop n ≠ [] := List.ne_nil_of_length_pos (by omega)
      have htake : IsLeading (ds.take n) := h.take (by omega)
      rw [htext]
      refine ⟨_, _, .point htake.isWhole hdrop fun c hc => h.digits c (List.mem_of_mem_drop hc), ?_⟩
      rw [List.take_append_drop, hlength]
      congr 2
      omega
    · obtain ⟨n, hn⟩ := Int.eq_ofNat_of_zero_le (neg_nonneg.mpr (not_lt.mp hpoint))
      have htext : positional true ds e = ['0'] ++ '.' :: (List.replicate n '0' ++ ds) := by
        rw [positional, if_neg hwhole, if_neg hpoint, hn]
        rfl
      have hdigits : ∀ c ∈ List.replicate n '0' ++ ds, isDigit c = true := fun c hc =>
        (List.mem_append.mp hc).elim isDigit_of_mem_zeros (h.digits c)
      have hvalue : ofDigits (['0'] ++ (List.replicate n '0' ++ ds)) = ofDigits ds := by
        have hzeros : ['0'] ++ (List.replicate n '0' ++ ds) = List.replicate (n + 1) '0' ++ ds :=
          rfl
        rw [hzeros, Whole.ofDigits_append, Whole.ofDigits_replicate_zero, Nat.zero_mul,
          Nat.zero_add]
      rw [htext]
      have hwhole : IsWhole ['0'] :=
        ⟨List.cons_ne_nil '0' [], List.forall_mem_singleton.mpr rfl, fun _ => rfl⟩
      refine ⟨_, _, .point hwhole (List.append_ne_nil_of_right_ne_nil _ h.ne_nil) hdigits, ?_⟩
      rw [hvalue, List.length_append, List.length_replicate]
      congr 2
      omega

theorem hasValue_scientific {ds : List Char} (h : IsLeading ds) (power : ℤ) :
    HasValue (scientific ds power) (ofDigits ds * 10 ^ (power - (ds.length - 1 : ℕ))) := by
  obtain ⟨c, rest, rfl⟩ := List.exists_cons_of_ne_nil h.ne_nil
  have hfirst : IsWhole [c] := (h.take Nat.one_pos).isWhole
  cases rest with
  | nil =>
      refine ⟨_, _, .power hfirst power, ?_⟩
      rw [List.length_singleton, Nat.sub_self, Nat.cast_zero, sub_zero]
  | cons d rest =>
      have htext : scientific (c :: d :: rest) power =
          [c] ++ '.' :: (d :: rest ++ 'e' :: (toString power).toList) := by
        simp [scientific]
      rw [htext]
      exact ⟨_, _, .pointPower hfirst (List.cons_ne_nil d rest)
        (fun b hb => h.digits b (List.mem_cons_of_mem c hb)) power, rfl⟩

/-! ## Digits without zeros at the end -/

theorem exists_eq_trimZeros_append (digits : List Char) :
    ∃ n, digits = trimZeros digits ++ List.replicate n '0' := by
  have hzeros (c : Char) (hc : c ∈ digits.reverse.takeWhile (· = '0')) : c = '0' := by
    simpa using List.mem_takeWhile_imp hc
  refine ⟨(digits.reverse.takeWhile (· = '0')).length, ?_⟩
  calc digits
      = (digits.reverse.takeWhile (· = '0') ++ digits.reverse.dropWhile (· = '0')).reverse := by
        rw [List.takeWhile_append_dropWhile, List.reverse_reverse]
    _ = trimZeros digits ++ (digits.reverse.takeWhile (· = '0')).reverse := List.reverse_append
    _ = trimZeros digits ++ List.replicate (digits.reverse.takeWhile (· = '0')).length '0' := by
        conv => lhs; rw [List.eq_replicate_of_mem hzeros, List.reverse_replicate]

section

variable {n zeros : ℕ} (h : digitsOf n = trimZeros (digitsOf n) ++ List.replicate zeros '0')
include h

theorem ofDigits_trimZeros : n = ofDigits (trimZeros (digitsOf n)) * 10 ^ zeros := by
  calc n = ofDigits (digitsOf n) := (Whole.ofDigits_toDigits n).symm
    _ = ofDigits (trimZeros (digitsOf n) ++ List.replicate zeros '0') := congrArg ofDigits h
    _ = ofDigits (trimZeros (digitsOf n)) * 10 ^ zeros := by
        rw [Whole.ofDigits_append, Whole.ofDigits_replicate_zero, List.length_replicate,
          Nat.add_zero]

theorem isLeading_trimZeros (hn : n ≠ 0) : IsLeading (trimZeros (digitsOf n)) := by
  have hne : trimZeros (digitsOf n) ≠ [] := by
    intro hnil
    have hzero := ofDigits_trimZeros h
    rw [hnil, ofDigits, List.foldl_nil, Nat.zero_mul] at hzero
    exact hn hzero
  refine ⟨hne, fun c hc => ?_, fun hhead => ?_⟩
  · have hmem : c ∈ digitsOf n := h ▸ List.mem_append_left _ hc
    exact Whole.isDigit_of_mem_toDigits hmem
  · rw [← List.head?_append_of_ne_nil _ hne, ← h] at hhead
    exact Whole.head?_toDigits hn hhead

end

theorem hasValue_magnitude {d : Decimal} (hd : d.digits ≠ 0) :
    HasValue (magnitude literal d) (d.digits * 10 ^ d.exponent) := by
  obtain ⟨zeros, hzeros⟩ := exists_eq_trimZeros_append (digitsOf d.digits)
  have hleading := isLeading_trimZeros hzeros hd
  have hvalue : (d.digits : ℚ) * 10 ^ d.exponent =
      ofDigits (trimZeros (digitsOf d.digits)) * 10 ^ (d.exponent + zeros) := by
    have hten : (10 : ℚ) ≠ 0 := by norm_num
    conv => lhs; rw [ofDigits_trimZeros hzeros]
    rw [zpow_add₀ hten, zpow_natCast]
    push_cast
    ring
  have hlength : (digitsOf d.digits).length - (trimZeros (digitsOf d.digits)).length = zeros := by
    have hsum := congrArg List.length hzeros
    rw [List.length_append, List.length_replicate] at hsum
    omega
  have hmark : literal.markWhole = true := rfl
  rw [hvalue]
  simp only [magnitude, hlength, hmark]
  generalize trimZeros (digitsOf d.digits) = ds at hleading
  split_ifs
  · exact hasValue_positional hleading (d.exponent + zeros)
  · have hpos : 0 < ds.length := List.length_pos_of_ne_nil hleading.ne_nil
    have hpower :
        d.exponent + zeros + ds.length - 1 - (ds.length - 1 : ℕ) = d.exponent + zeros := by
      omega
    have hscientific := hasValue_scientific hleading (d.exponent + zeros + ds.length - 1)
    rw [hpower] at hscientific
    exact hscientific

end DepthRaster.Numeric.Written
