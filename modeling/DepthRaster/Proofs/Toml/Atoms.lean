import DepthRaster.Proofs.Numeric.Digits
import DepthRaster.Toml.Document
/-!
# Words that read back

Digits read as a whole number. They are no date, since dates and times have a mark after their first
digits, and no floating-point number, since that has a point or a power.
-/

namespace DepthRaster

open Numeric.Whole (isDigit)

namespace Toml

open Numeric

/-! ## Dates and times -/

theorem dropWhile_of_fixedDigits {count n : Nat} {cs rest : List Char}
    (h : fixedDigits count cs = some (n, rest)) :
    cs.dropWhile isDigit = rest.dropWhile isDigit := by
  simp only [fixedDigits] at h
  split at h
  · rename_i hdigits
    simp only [Option.some.injEq, Prod.mk.injEq] at h
    simp only [Bool.and_eq_true, List.all_eq_true] at hdigits
    obtain ⟨-, rfl⟩ := h
    conv => lhs; rw [← List.take_append_drop count cs]
    exact List.dropWhile_append_of_pos hdigits.2
  · simp at h

/-- If reading goes on after a fixed number of digits then a mark stands there, so these were all of
the digits. -/
theorem head?_dropWhile_of_bind {count : Nat} {cs rest : List Char} {mark : Char}
    {next : Nat × List Char → Option (List Char)} (hmark : isDigit mark = false)
    (hnext : ∀ n after, next (n, after) = some rest → after.head? = some mark)
    (h : (fixedDigits count cs).bind next = some rest) :
    (cs.dropWhile isDigit).head? = some mark := by
  obtain ⟨⟨n, after⟩, hdigits, hafter⟩ := Option.bind_eq_some_iff.mp h
  obtain ⟨tail, rfl⟩ := List.head?_eq_some_iff.mp (hnext n after hafter)
  rw [dropWhile_of_fixedDigits hdigits, List.dropWhile_cons_of_neg (by simp [hmark])]
  rfl

theorem head?_dropWhile_of_afterDate {cs rest : List Char} (h : afterDate cs = some rest) :
    (cs.dropWhile isDigit).head? = some '-' := by
  refine head?_dropWhile_of_bind rfl (fun n after hafter => ?_) h
  dsimp only at hafter
  split at hafter
  · rfl
  · exact nomatch hafter

theorem head?_dropWhile_of_afterMinute {lastHour : Nat} {cs rest : List Char}
    (h : afterMinute lastHour cs = some rest) : (cs.dropWhile isDigit).head? = some ':' := by
  refine head?_dropWhile_of_bind rfl (fun n after hafter => ?_) h
  dsimp only at hafter
  split at hafter
  · rfl
  · exact nomatch hafter

/-- Dates and times have a dash or a colon after their first digits. -/
theorem isDateTime_eq_false {cs : List Char} (hdash : (cs.dropWhile isDigit).head? ≠ some '-')
    (hcolon : (cs.dropWhile isDigit).head? ≠ some ':') : isDateTime cs = false := by
  have hdate : afterDate cs = none := by
    cases h : afterDate cs with
    | none => rfl
    | some rest => exact absurd (head?_dropWhile_of_afterDate h) hdash
  have hminute : afterMinute 23 cs = none := by
    cases h : afterMinute 23 cs with
    | none => rfl
    | some rest => exact absurd (head?_dropWhile_of_afterMinute h) hcolon
  simp [isDateTime, afterTime, hdate, hminute]

theorem isDateTime_dash (cs : List Char) : isDateTime ('-' :: cs) = false := by
  have hdash : isDigit '-' = false := by decide
  simp [isDateTime, afterTime, afterMinute, afterDate, fixedDigits, hdash]

/-! ## Whole numbers -/

theorem digitGroup_of_all {isBaseDigit : Char → Bool} (hmark : isBaseDigit '_' = false)
    {cs : List Char} (hne : cs ≠ []) (h : ∀ c ∈ cs, isBaseDigit c = true) :
    digitGroup isBaseDigit cs = some cs := by
  induction cs with
  | nil => exact absurd rfl hne
  | cons c cs ih =>
      have hc := h c List.mem_cons_self
      cases cs with
      | nil => rw [digitGroup, if_pos hc]
      | cons d ds =>
          have hd := h d (List.mem_cons_of_mem c List.mem_cons_self)
          have hd_ne : d ≠ '_' := by
            rintro rfl
            rw [hmark] at hd
            exact Bool.false_ne_true hd
          have hds := ih (List.cons_ne_nil d ds) fun e he => h e (List.mem_cons_of_mem c he)
          rw [digitGroup, if_pos hc, hds]
          · rfl
          · exact List.cons_ne_nil d ds
          · exact fun more heq => hd_ne (List.cons.inj heq).1

theorem decimalDigits_of_all {cs : List Char} (hne : cs ≠ []) (h : ∀ c ∈ cs, isDigit c = true)
    (hzero : cs.head? = some '0' → cs = ['0']) : decimalDigits cs = some cs := by
  unfold decimalDigits
  split
  · exact absurd (hzero rfl) (by simp)
  · exact digitGroup_of_all (by decide) hne h

theorem decimalDigits_toDigits (n : Nat) :
    decimalDigits (Nat.toDigits 10 n) = some (Nat.toDigits 10 n) := by
  refine decimalDigits_of_all Nat.toDigits_ne_nil
    (fun c hc => Whole.isDigit_of_mem_toDigits hc) fun hzero => ?_
  by_cases hn : n = 0
  · rw [hn, Nat.toDigits_zero]
  · exact absurd hzero (Whole.head?_toDigits hn)

theorem takeSign_of_ne {c : Char} (hminus : c ≠ '-') (hplus : c ≠ '+') (cs : List Char) :
    Scientific.takeSign (c :: cs) = (false, c :: cs) := by
  rw [Scientific.takeSign]
  · exact fun _ heq => hminus (List.cons.inj heq).1
  · exact fun _ heq => hplus (List.cons.inj heq).1

theorem takeSign_of_isDigit {c : Char} (h : isDigit c = true) (cs : List Char) :
    Scientific.takeSign (c :: cs) = (false, c :: cs) :=
  takeSign_of_ne (Whole.ne_of_isDigit h (by decide)) (Whole.ne_of_isDigit h (by decide)) cs

theorem takeSign_of_all {cs : List Char} (h : ∀ c ∈ cs, isDigit c = true) :
    Scientific.takeSign cs = (false, cs) := by
  cases cs with
  | nil => rfl
  | cons c cs => exact takeSign_of_isDigit (h c List.mem_cons_self) cs

theorem isWholeChar_of_isDigit {c : Char} (h : isDigit c = true) :
    (c != '.' && !isPowerMark c) = true := by
  have hpoint : c ≠ '.' := Whole.ne_of_isDigit h (by decide)
  have hlower : c ≠ 'e' := Whole.ne_of_isDigit h (by decide)
  have hupper : c ≠ 'E' := Whole.ne_of_isDigit h (by decide)
  simp [isPowerMark, hpoint, hlower, hupper]

theorem scientific?_of_all {cs : List Char} (h : ∀ c ∈ cs, isDigit c = true) :
    scientific? cs = none := by
  have hrest : cs.dropWhile (fun c => c != '.' && !isPowerMark c) = [] :=
    List.dropWhile_eq_nil_iff.mpr fun c hc => isWholeChar_of_isDigit (h c hc)
  simp only [scientific?, takeSign_of_all h, hrest]
  cases decimalDigits (cs.takeWhile fun c => c != '.' && !isPowerMark c) with
  | none => rfl
  | some whole => rfl

theorem ne_word_of_all {cs word : List Char} (h : ∀ c ∈ cs, isDigit c = true)
    (hword : word.all isDigit = false) : cs ≠ word := by
  rintro rfl
  rw [List.all_eq_true.mpr h] at hword
  exact Bool.false_ne_true hword.symm

theorem float?_of_all {cs : List Char} (h : ∀ c ∈ cs, isDigit c = true) : float? cs = none := by
  simp only [float?, takeSign_of_all h]
  rw [if_neg (ne_word_of_all h (by decide)), if_neg (ne_word_of_all h (by decide)),
    scientific?_of_all h]
  rfl

theorem signedWord?_of_lt {n : Nat} (h : n < 2 ^ 63) : signedWord? n = some (Int64.ofInt n) := by
  have hlow : Int64.minValue.toInt = -(2 ^ 63) := rfl
  have hhigh : Int64.maxValue.toInt = 2 ^ 63 - 1 := rfl
  rw [signedWord?, hlow, hhigh, if_pos]
  omega

theorem signedWord?_of_le {n : Nat} (h : 2 ^ 63 ≤ n) : signedWord? n = none := by
  have hhigh : Int64.maxValue.toInt = 2 ^ 63 - 1 := rfl
  rw [signedWord?, hhigh, if_neg]
  omega

theorem integer?_toDigits (n : Nat) : integer? (Nat.toDigits 10 n) = signedWord? n := by
  have hdigits (c : Char) (hc : c ∈ Nat.toDigits 10 n) : isDigit c = true :=
    Whole.isDigit_of_mem_toDigits hc
  have hbase (mark : Char) (hmark : isDigit mark = false) (ds : List Char) :
      Nat.toDigits 10 n ≠ '0' :: mark :: ds := by
    intro heq
    have hmem : mark ∈ Nat.toDigits 10 n := by simp [heq]
    exact Whole.ne_of_isDigit (hdigits mark hmem) hmark rfl
  rw [integer?]
  · rw [takeSign_of_all hdigits, ofDecimal, decimalDigits_toDigits, Option.bind_some,
      if_neg Bool.false_ne_true, Whole.ofDigits_toDigits]
  · exact fun ds => hbase 'x' (by decide) ds
  · exact fun ds => hbase 'o' (by decide) ds
  · exact fun ds => hbase 'b' (by decide) ds

/-- Digits are read as a whole number, if it fits a word. -/
theorem atom?_eq_map_signedWord? (n : Nat) :
    atom? (Nat.toDigits 10 n) = (signedWord? n).map .integer := by
  have hdigits (c : Char) (hc : c ∈ Nat.toDigits 10 n) : isDigit c = true :=
    Whole.isDigit_of_mem_toDigits hc
  have hend : (Nat.toDigits 10 n).dropWhile isDigit = [] :=
    List.dropWhile_eq_nil_iff.mpr hdigits
  have hdate : isDateTime (Nat.toDigits 10 n) = false := by
    apply isDateTime_eq_false
    · simp [hend]
    · simp [hend]
  rw [atom?, if_neg (ne_word_of_all hdigits (by decide)),
    if_neg (ne_word_of_all hdigits (by decide)), hdate, float?_of_all hdigits, integer?_toDigits]
  rfl

theorem atom?_toDigits {n : Nat} (h : n < 2 ^ 63) :
    atom? (Nat.toDigits 10 n) = some (.integer (Int64.ofInt n)) := by
  rw [atom?_eq_map_signedWord?, signedWord?_of_lt h]
  rfl

theorem atom?_toDigits_of_le {n : Nat} (h : 2 ^ 63 ≤ n) : atom? (Nat.toDigits 10 n) = none := by
  rw [atom?_eq_map_signedWord?, signedWord?_of_le h]
  rfl

end Toml

end DepthRaster
