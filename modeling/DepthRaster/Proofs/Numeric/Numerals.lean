import DepthRaster.Proofs.Numeric.Digits
/-!
# Numbers without a sign in text

What characters say as a number up to a limit: which of them are a number, and what is wrong with
all others.
-/

namespace DepthRaster.Numeric.Whole

variable {limit : ℕ} {cs : List Char} {outcome : Except WholeError ℕ}

/-- What may stand in front of the digits. -/
def signs : List (List Char) := [[], ['+']]

/-- What characters say as a number up to a limit. Characters are taken from left to right: a number
that grows too large is refused before what follows its digits. -/
inductive Reading (limit : ℕ) : List Char → Except WholeError ℕ → Prop
  | number {sign digits} (hsign : sign ∈ signs) (hne : digits ≠ [])
      (hdigits : ∀ c ∈ digits, isDigit c = true) (hvalue : ofDigits digits ≤ limit) :
      Reading limit (sign ++ digits) (.ok (ofDigits digits))
  | empty : Reading limit [] (.error .empty)
  | loneSign : Reading limit ['+'] (.error .invalidDigit)
  | invalidDigit {sign digits c rest} (hsign : sign ∈ signs)
      (hdigits : ∀ d ∈ digits, isDigit d = true) (hvalue : ofDigits digits ≤ limit)
      (hc : isDigit c = false) (hplus : sign ++ digits = [] → c ≠ '+') :
      Reading limit (sign ++ (digits ++ c :: rest)) (.error .invalidDigit)
  | tooLarge {sign digits rest} (hsign : sign ∈ signs) (hdigits : ∀ d ∈ digits, isDigit d = true)
      (hvalue : limit < ofDigits digits) :
      Reading limit (sign ++ (digits ++ rest)) (.error .tooLarge)

theorem readUnsigned_append {sign : List Char} (hsign : sign ∈ signs) (hne : cs ≠ [])
    (hplus : sign = [] → cs.head? ≠ some '+') :
    readUnsigned limit (sign ++ cs) = readOn limit 0 cs := by
  obtain ⟨c, rest, rfl⟩ := List.exists_cons_of_ne_nil hne
  simp only [signs, List.mem_cons, List.not_mem_nil, or_false] at hsign
  obtain rfl | rfl := hsign
  · have hc : c ≠ '+' := fun h => hplus rfl (congrArg some h)
    rw [List.nil_append, readUnsigned, readDigits] <;> simp [hc]
  · rw [List.singleton_append, readUnsigned, readDigits]
    exact hne

theorem head?_digits_append {digits : List Char} (hne : digits ≠ [])
    (hdigits : ∀ c ∈ digits, isDigit c = true) (rest : List Char) :
    (digits ++ rest).head? ≠ some '+' := by
  obtain ⟨c, tail, rfl⟩ := List.exists_cons_of_ne_nil hne
  have hc : c ≠ '+' := ne_of_isDigit (hdigits c List.mem_cons_self) rfl
  simpa using hc

theorem Reading.readUnsigned_eq (h : Reading limit cs outcome) :
    readUnsigned limit cs = outcome := by
  cases h with
  | @number sign digits hsign hne hdigits hvalue =>
      have hread := readOn_zero_append limit hdigits []
      have hhead := head?_digits_append hne hdigits []
      rw [List.append_nil] at hread hhead
      rw [readUnsigned_append hsign hne fun _ => hhead, hread, if_neg (Nat.not_lt.mpr hvalue),
        readOn]
  | empty => rfl
  | loneSign => rfl
  | @invalidDigit sign digits c rest hsign hdigits hvalue hc hplus =>
      have hhead : sign = [] → (digits ++ c :: rest).head? ≠ some '+' := by
        rintro rfl
        cases digits with
        | nil => simpa using hplus rfl
        | cons d digits => exact head?_digits_append (List.cons_ne_nil d digits) hdigits _
      rw [readUnsigned_append hsign (by simp) hhead, readOn_zero_append limit hdigits,
        if_neg (Nat.not_lt.mpr hvalue), readOn, if_neg (by simp [hc])]
  | @tooLarge sign digits rest hsign hdigits hvalue =>
      have hne : digits ≠ [] := by
        rintro rfl
        exact Nat.not_lt_zero limit hvalue
      rw [readUnsigned_append hsign (by simp [hne]) fun _ => head?_digits_append hne hdigits rest,
        readOn_zero_append limit hdigits, if_pos hvalue]

theorem exists_sign (cs : List Char) :
    ∃ sign ∈ signs, ∃ rest, cs = sign ++ rest ∧ (sign = [] → rest.head? ≠ some '+') := by
  by_cases h : cs.head? = some '+'
  · obtain ⟨rest, rfl⟩ := List.head?_eq_some_iff.mp h
    exact ⟨['+'], by simp [signs], rest, rfl, by simp⟩
  · exact ⟨[], by simp [signs], cs, rfl, fun _ => h⟩

theorem exists_reading (limit : ℕ) (cs : List Char) : ∃ outcome, Reading limit cs outcome := by
  obtain ⟨sign, hsign, _, rfl, hplus⟩ := exists_sign cs
  obtain ⟨digits, rest, rfl, hdigits, hrest⟩ := exists_run isDigit ‹_›
  by_cases hlarge : limit < ofDigits digits
  · exact ⟨_, .tooLarge hsign hdigits hlarge⟩
  have hvalue := Nat.not_lt.mp hlarge
  -- What follows the digits decides, and where nothing does, whether there were any.
  cases rest with
  | cons c rest =>
      refine ⟨_, .invalidDigit hsign hdigits hvalue (hrest c rfl) fun hnil => ?_⟩
      obtain ⟨rfl, rfl⟩ := List.append_eq_nil_iff.mp hnil
      simpa using hplus rfl
  | nil =>
      rw [List.append_nil]
      by_cases hne : digits = []
      · subst hne
        simp only [signs, List.mem_cons, List.not_mem_nil, or_false] at hsign
        obtain rfl | rfl := hsign
        · exact ⟨_, .empty⟩
        · exact ⟨_, .loneSign⟩
      · exact ⟨_, .number hsign hne hdigits hvalue⟩

/-- Reading follows the characters from left to right, whatever they are. -/
theorem reading_iff : Reading limit cs outcome ↔ readUnsigned limit cs = outcome := by
  refine ⟨Reading.readUnsigned_eq, ?_⟩
  rintro rfl
  obtain ⟨outcome, h⟩ := exists_reading limit cs
  exact h.readUnsigned_eq ▸ h

theorem Reading.le_of_ok {n : ℕ} (h : Reading limit cs (.ok n)) : n ≤ limit := by
  cases h with
  | number hsign hne hdigits hvalue => exact hvalue

end DepthRaster.Numeric.Whole
