import DepthRaster.Numeric.Whole
import DepthRaster.Proofs.Lists
import Mathlib.Algebra.Group.Nat.Defs
/-!
# Decimal digits

The digits of a number are digits, give the number back, and begin with zero for zero only.
-/

namespace DepthRaster

namespace Numeric.Whole

theorem ne_of_isDigit {c d : Char} (hc : isDigit c = true) (hd : isDigit d = false) : c ≠ d := by
  rintro rfl
  rw [hd] at hc
  exact Bool.false_ne_true hc

theorem isDigit_eq (c : Char) : isDigit c = c.isDigit := by
  simp only [isDigit, Char.isDigit, ge_iff_le, Char.le_def, UInt32.le_iff_toNat_le]

theorem isDigit_of_mem_toDigits {n : Nat} {c : Char} (h : c ∈ Nat.toDigits 10 n) :
    isDigit c = true := by
  rw [isDigit_eq]
  exact Nat.isDigit_of_mem_toDigits (by decide) (by decide) h

theorem ofDigits_eq (cs : List Char) : ofDigits cs = Nat.ofDigitChars 10 cs 0 := by
  rw [Nat.ofDigitChars_eq_foldl, ofDigits]
  congr 1
  funext n c
  rw [Nat.mul_comm]
  rfl

@[simp] theorem ofDigits_toDigits (n : Nat) : ofDigits (Nat.toDigits 10 n) = n := by
  rw [ofDigits_eq]
  exact Nat.ofDigitChars_ten_toDigits

theorem ofDigits_append (cs ds : List Char) :
    ofDigits (cs ++ ds) = ofDigits cs * 10 ^ ds.length + ofDigits ds := by
  rw [ofDigits_eq, ofDigits_eq, ofDigits_eq, Nat.ofDigitChars_append,
    Nat.ofDigitChars_eq_ofDigitChars_zero, Nat.mul_comm]

theorem ofDigits_replicate_zero (n : Nat) : ofDigits (List.replicate n '0') = 0 := by
  rw [ofDigits_eq, Nat.ofDigitChars_replicate_zero, Nat.mul_zero]

theorem head?_toDigits {n : Nat} (h : n ≠ 0) : (Nat.toDigits 10 n).head? ≠ some '0' := by
  induction n using Nat.strongRecOn with
  | ind n ih =>
      by_cases hn : n < 10
      · rw [Nat.toDigits_of_lt_base hn]
        simp [h]
      · rw [Nat.toDigits_of_base_le (by decide) (by omega)]
        have hne : Nat.toDigits 10 (n / 10) ≠ [] := Nat.toDigits_ne_nil
        rw [List.head?_append, List.head?_eq_some_head hne, Option.some_or,
          ← List.head?_eq_some_head hne]
        exact ih (n / 10) (by omega) (by omega)

/-! ## Reading up to a limit -/

theorem readOn_append {limit : Nat} {digits : List Char} (h : ∀ c ∈ digits, isDigit c = true)
    (rest : List Char) {n : Nat} (hn : n ≤ limit) :
    readOn limit n (digits ++ rest) =
      if limit < n * 10 ^ digits.length + ofDigits digits then .error .tooLarge
      else readOn limit (n * 10 ^ digits.length + ofDigits digits) rest := by
  induction digits generalizing n with
  | nil =>
      have hvalue : n * 10 ^ ([] : List Char).length + ofDigits [] = n := by simp [ofDigits]
      rw [hvalue, if_neg (Nat.not_lt.mpr hn), List.nil_append]
  | cons c cs ih =>
      have hvalue : n * 10 ^ (c :: cs).length + ofDigits (c :: cs) =
          (n * 10 + digitValue c) * 10 ^ cs.length + ofDigits cs := by
        have hfirst : ofDigits [c] = digitValue c := by simp [ofDigits]
        rw [← List.singleton_append, ofDigits_append, hfirst, List.singleton_append,
          List.length_cons, Nat.pow_succ, Nat.add_mul, Nat.mul_comm (10 ^ cs.length) 10,
          Nat.mul_assoc, Nat.add_assoc]
      have hdigit := h c List.mem_cons_self
      have hrest : ∀ d ∈ cs, isDigit d = true := fun d hd => h d (List.mem_cons_of_mem c hd)
      rw [List.cons_append, readOn, if_pos hdigit, hvalue]
      by_cases hnext : limit < n * 10 + digitValue c
      · have hpow : 0 < 10 ^ cs.length := Nat.pow_pos (Nat.zero_lt_succ 9)
        have hle := Nat.le_mul_of_pos_right (n * 10 + digitValue c) hpow
        rw [if_pos hnext, if_pos (by omega)]
      · rw [if_neg hnext, ih hrest (by omega)]

theorem readOn_zero_append (limit : Nat) {digits : List Char}
    (h : ∀ c ∈ digits, isDigit c = true) (rest : List Char) :
    readOn limit 0 (digits ++ rest) =
      if limit < ofDigits digits then .error .tooLarge
      else readOn limit (ofDigits digits) rest := by
  rw [readOn_append h rest (Nat.zero_le limit), Nat.zero_mul, Nat.zero_add]

theorem readSigned_eq {cs : List Char} (hne : cs ≠ []) (h : ∀ c ∈ cs, isDigit c = true) :
    readSigned cs =
      if 2 ^ 63 ≤ ofDigits cs then .error .tooLarge else .ok (ofDigits cs : Int) := by
  obtain ⟨c, rest, rfl⟩ := List.exists_cons_of_ne_nil hne
  have hdigit := h c List.mem_cons_self
  have hplus : c ≠ '+' := ne_of_isDigit hdigit rfl
  have hminus : c ≠ '-' := ne_of_isDigit hdigit rfl
  have hread := readOn_zero_append Int64.maxValue.toInt.toNat h []
  rw [List.append_nil] at hread
  have hmax : Int64.maxValue.toInt.toNat = 2 ^ 63 - 1 := by decide
  have hunsigned : readSigned (c :: rest) =
      (readOn Int64.maxValue.toInt.toNat 0 (c :: rest)).map Int.ofNat := by
    rw [readSigned, readDigits] <;> simp [hplus, hminus]
  rw [hunsigned, hread, hmax]
  by_cases hlarge : 2 ^ 63 ≤ ofDigits (c :: rest)
  · rw [if_pos hlarge, if_pos (by omega)]
    rfl
  · rw [if_neg hlarge, if_neg (by omega)]
    rfl

end Numeric.Whole

end DepthRaster
