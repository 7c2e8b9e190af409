import DepthRaster.Proofs.Toml.Atoms
import DepthRaster.Proofs.Toml.Strings
/-!
# Values at the end of a line

Strings and words are read up to the end of their line, as what they stand for or as nothing.
-/

namespace DepthRaster.Toml

open Numeric (Scientific)
open Numeric.Whole (isDigit)

/-- A text that is read as a value when its line ends after it. -/
structure ReadsAs (text : List Char) (value : Value) : Prop where
  start : ∀ c, text.head? = some c → isSpace c = false
  read : ∀ rest, readValue maxNesting (text ++ '\n' :: rest) = some (value, '\n' :: rest)

/-- A text that is refused as a value when its line ends after it. -/
structure IsRefused (text : List Char) : Prop where
  start : ∀ c, text.head? = some c → isSpace c = false
  read : ∀ rest, readValue maxNesting (text ++ '\n' :: rest) = none

/-! ## Strings -/

theorem isSpace_of_head?_quote {cs : List Char} (c : Char) (hc : ('"' :: cs).head? = some c) :
    isSpace c = false := by
  obtain rfl : '"' = c := Option.some.inj hc
  decide

theorem readsAs_string {body text : List Char} (h : Spells body text) :
    ReadsAs ('"' :: (body ++ ['"'])) (.string (String.ofList text)) where
  start := isSpace_of_head?_quote
  read rest := by
    have hread : readString ('"' :: (body ++ '"' :: '\n' :: rest)) = some (text, '\n' :: rest) := by
      rw [readString_of_head?, basicBody_of_spells h, basicBody]
      · simp
      · intro more heq
        cases body with
        | nil => exact absurd (List.cons.inj (List.cons.inj heq).2).1 (by decide)
        | cons c cs => exact h.head?_ne (congrArg some (List.cons.inj heq).1)
    rw [List.cons_append, List.append_assoc, List.singleton_append, readValue, hread]
    rfl

theorem isRefused_string {body : List Char} (h : Misspells body) :
    IsRefused ('"' :: (body ++ ['"'])) where
  start := isSpace_of_head?_quote
  read rest := by
    have hread : readString ('"' :: (body ++ '"' :: '\n' :: rest)) = none := by
      rw [readString_of_head?, basicBody_of_misspells h]
      obtain ⟨c, cs, rfl, hc⟩ := h.exists_cons
      exact fun more heq => hc (List.cons.inj heq).1
    rw [List.cons_append, List.append_assoc, List.singleton_append, readValue, hread]
    rfl

/-! ## Words -/

theorem readAtom_word {cs : List Char} (hchars : ∀ c ∈ cs, isAtomChar c = true)
    (rest : List Char) :
    readAtom (cs ++ '\n' :: rest) = (atom? cs).map (·, '\n' :: rest) := by
  have hstop : ∀ c, ('\n' :: rest).head? = some c → isAtomChar c = false := by
    intro c hc
    obtain rfl : '\n' = c := Option.some.inj hc
    decide
  simp only [readAtom, takeWhile_run hchars hstop, dropWhile_run hchars hstop]
  exact Option.map_eq_bind.symm

theorem isSpace_of_isAtomChar {c : Char} (h : isAtomChar c = true) : isSpace c = false := by
  cases hspace : isSpace c with
  | false => rfl
  | true =>
      simp only [isSpace, Bool.or_eq_true, decide_eq_true_eq] at hspace
      rcases hspace with rfl | rfl
      · exact absurd h (by decide)
      · exact absurd h (by decide)

theorem readValue_word {cs : List Char} (hne : cs ≠ []) (hchars : ∀ c ∈ cs, isAtomChar c = true)
    (rest : List Char) :
    readValue maxNesting (cs ++ '\n' :: rest) = readAtom (cs ++ '\n' :: rest) := by
  have hmark (mark : Char) (h : isAtomChar mark = false) (more : List Char) :
      cs ++ '\n' :: rest ≠ mark :: more := by
    intro heq
    cases cs with
    | nil => exact hne rfl
    | cons c cs =>
        obtain rfl : c = mark := (List.cons.inj heq).1
        rw [hchars c List.mem_cons_self] at h
        exact Bool.false_ne_true h.symm
  rw [readValue]
  · exact hmark '"' (by decide)
  · exact hmark '\x27' (by decide)
  · exact hmark '[' (by decide)
  · exact hmark '\x7b' (by decide)

section

variable {cs : List Char} (hne : cs ≠ [])

include hne

theorem readsAs_word {value : Value} (hchars : ∀ c ∈ cs, isAtomChar c = true)
    (hatom : atom? cs = some value) : ReadsAs cs value where
  start c hc := isSpace_of_isAtomChar (hchars c (List.mem_of_mem_head? hc))
  read rest := by
    rw [readValue_word hne hchars, readAtom_word hchars, hatom]
    rfl

theorem isRefused_word (hchars : ∀ c ∈ cs, isAtomChar c = true) (hatom : atom? cs = none) :
    IsRefused cs where
  start c hc := isSpace_of_isAtomChar (hchars c (List.mem_of_mem_head? hc))
  read rest := by
    rw [readValue_word hne hchars, readAtom_word hchars, hatom]
    rfl

end

/-! ## Letters -/

theorem range_of_isAlpha {c : Char} (h : c.isAlpha = true) :
    ('A' ≤ c ∧ c ≤ 'Z') ∨ ('a' ≤ c ∧ c ≤ 'z') := by
  have hupper (h : c.isUpper = true) : 'A'.val ≤ c.val ∧ c.val ≤ 'Z'.val := of_decide_eq_true h
  have hlower (h : c.isLower = true) : 'a'.val ≤ c.val ∧ c.val ≤ 'z'.val :=
    (Bool.and_eq_true_iff.mp h).imp of_decide_eq_true of_decide_eq_true
  exact (Bool.or_eq_true_iff.mp h).imp hupper hlower

theorem isAtomChar_of_isAlpha {c : Char} (h : c.isAlpha = true) : isAtomChar c = true := by
  simp only [isAtomChar, Bool.or_eq_true, Bool.and_eq_true, decide_eq_true_eq]
  rcases range_of_isAlpha h with h | h
  · exact .inl (.inl (.inl (.inl (.inl (.inl (.inl h))))))
  · exact .inl (.inl (.inl (.inl (.inl (.inl (.inr h))))))

theorem decimalDigits_of_head? {cs : List Char} (h : ∀ c, cs.head? = some c → isDigit c = false) :
    decimalDigits cs = none := by
  unfold decimalDigits
  split
  · rfl
  · cases cs with
    | nil => rfl
    | cons c cs =>
        unfold digitGroup
        exact if_neg (by rw [h c rfl]; exact Bool.false_ne_true)

section

variable {c : Char} (h : c.isAlpha = true)

include h

theorem ne_of_isAlpha {mark : Char} (hmark : mark.isAlpha = false) : c ≠ mark := by
  rintro rfl
  rw [h] at hmark
  exact Bool.false_ne_true hmark.symm

theorem not_isDigit_of_isAlpha : isDigit c = false := by
  have hlow : 'A' ≤ c := by
    rcases range_of_isAlpha h with h | h
    · exact h.1
    · exact Nat.le_trans (by decide) h.1
  have hhigh : ¬ c ≤ '9' := fun hle => absurd (Nat.le_trans hlow hle) (by decide)
  rw [isDigit, decide_eq_false hhigh, Bool.and_false]

variable (cs : List Char)

theorem takeSign_of_isAlpha : Scientific.takeSign (c :: cs) = (false, c :: cs) :=
  takeSign_of_ne (ne_of_isAlpha h (by decide)) (ne_of_isAlpha h (by decide)) cs

theorem isDateTime_of_isAlpha : isDateTime (c :: cs) = false := by
  have hdigits : (c :: cs).dropWhile isDigit = c :: cs :=
    List.dropWhile_cons_of_neg (by simp [not_isDigit_of_isAlpha h])
  apply isDateTime_eq_false
  · rw [hdigits]
    exact fun heq => ne_of_isAlpha h (by decide) (Option.some.inj heq)
  · rw [hdigits]
    exact fun heq => ne_of_isAlpha h (by decide) (Option.some.inj heq)

theorem scientific?_of_isAlpha : scientific? (c :: cs) = none := by
  have hdigits : decimalDigits ((c :: cs).takeWhile fun c => c != '.' && !isPowerMark c) =
      none := by
    refine decimalDigits_of_head? fun d hd => ?_
    rw [List.head?_takeWhile] at hd
    obtain rfl : c = d := Option.some.inj (Option.filter_eq_some_iff.mp hd).1
    exact not_isDigit_of_isAlpha h
  simp only [scientific?, takeSign_of_isAlpha h, hdigits]
  rfl

theorem integer?_of_isAlpha : integer? (c :: cs) = none := by
  have hdigits : decimalDigits (c :: cs) = none := by
    refine decimalDigits_of_head? ?_
    rintro _ ⟨⟩
    exact not_isDigit_of_isAlpha h
  rw [integer?, takeSign_of_isAlpha h, ofDecimal, hdigits]
  · rfl
  all_goals exact fun _ heq => ne_of_isAlpha h (by decide) (List.cons.inj heq).1

end

/-- No word of letters but the named values is one. -/
theorem atom?_of_isAlpha {cs : List Char} (hne : cs ≠ []) (h : ∀ c ∈ cs, c.isAlpha = true)
    (hnamed : cs ∉ namedValues) : atom? cs = none := by
  simp only [namedValues, List.map_cons, List.map_nil, List.mem_cons, List.not_mem_nil, or_false,
    not_or] at hnamed
  obtain ⟨htrue, hfalse, hinf, hnan⟩ := hnamed
  obtain ⟨c, rest, rfl⟩ := List.exists_cons_of_ne_nil hne
  have hletter : c.isAlpha = true := h c List.mem_cons_self
  have hfloat : float? (c :: rest) = none := by
    simp only [float?, takeSign_of_isAlpha hletter]
    rw [if_neg hinf, if_neg hnan, scientific?_of_isAlpha hletter]
    rfl
  rw [atom?, if_neg htrue, if_neg hfalse, isDateTime_of_isAlpha hletter, hfloat,
    integer?_of_isAlpha hletter]
  rfl

end DepthRaster.Toml
