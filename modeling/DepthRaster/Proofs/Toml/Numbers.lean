import DepthRaster.Proofs.Numeric.Comparison
import DepthRaster.Proofs.Numeric.Shortest
import DepthRaster.Proofs.Numeric.Written
import DepthRaster.Proofs.Toml.Values
/-!
# Literals that read back

A numeral, with or without a sign, reads as its value. So the literal of a finite number reads as
that number.
-/

namespace DepthRaster.Toml

open Numeric
open Numeric.Whole (isDigit)
open Numeric.Written (IsNumeral IsWhole)

/-! ## Numerals -/

theorem digitGroup_of_isDigit {ds : List Char} (hne : ds ≠ []) (h : ∀ c ∈ ds, isDigit c = true) :
    digitGroup isDigit ds = some ds :=
  digitGroup_of_all (by decide) hne h

theorem power?_of_takeSign {cs : List Char} {negative : Bool} {n : ℕ}
    (hsign : Scientific.takeSign cs = (negative, Nat.toDigits 10 n)) :
    power? cs = some (if negative then -(n : ℤ) else n) := by
  have hgroup : digitGroup isDigit (Nat.toDigits 10 n) = some (Nat.toDigits 10 n) :=
    digitGroup_of_isDigit Nat.toDigits_ne_nil fun c hc => Whole.isDigit_of_mem_toDigits hc
  simp only [power?, hsign, hgroup, Option.bind_eq_bind, Option.bind_some,
    Whole.ofDigits_toDigits]
  rfl

theorem toList_toString_ofNat (n : ℕ) : (toString (Int.ofNat n)).toList = Nat.toDigits 10 n :=
  Nat.toList_repr

theorem toList_toString_negSucc (n : ℕ) :
    (toString (Int.negSucc n)).toList = '-' :: Nat.toDigits 10 (n + 1) := by
  change ("-" ++ (n + 1).repr).toList = _
  rw [String.toList_append, Nat.toList_repr]
  rfl

theorem power?_toString (k : ℤ) : power? (toString k).toList = some k := by
  cases k with
  | ofNat n =>
      have hsign : Scientific.takeSign (Nat.toDigits 10 n) = (false, Nat.toDigits 10 n) :=
        takeSign_of_all fun c hc => Whole.isDigit_of_mem_toDigits hc
      rw [toList_toString_ofNat, power?_of_takeSign hsign]
      rfl
  | negSucc n =>
      rw [toList_toString_negSucc, power?_of_takeSign rfl]
      rfl

section

variable {cs whole : List Char} {negative : Bool}

theorem parts_of_isWhole (hwhole : IsWhole whole) {c : Char} (rest : List Char)
    (hmark : (c != '.' && !isPowerMark c) = false) :
    decimalDigits ((whole ++ c :: rest).takeWhile fun c => c != '.' && !isPowerMark c) =
        some whole ∧
      ((whole ++ c :: rest).dropWhile fun c => c != '.' && !isPowerMark c) = c :: rest := by
  have hrun (c : Char) (hc : c ∈ whole) := isWholeChar_of_isDigit (hwhole.digits c hc)
  have hstop : ∀ d, (c :: rest).head? = some d → (d != '.' && !isPowerMark d) = false := by
    intro d hd
    obtain rfl : c = d := Option.some.inj hd
    exact hmark
  rw [takeWhile_run hrun hstop, dropWhile_run hrun hstop]
  exact ⟨decimalDigits_of_all hwhole.ne_nil hwhole.digits hwhole.head, rfl⟩

theorem isPowerMark_of_isDigit {c : Char} (h : isDigit c = true) : (!isPowerMark c) = true :=
  (Bool.and_eq_true_iff.mp (isWholeChar_of_isDigit h)).2

theorem scientific?_of_isNumeral {body : List Char} {m : ℕ} {k : ℤ}
    (hsign : Scientific.takeSign cs = (negative, body)) (h : IsNumeral body m k) :
    scientific? cs = some ⟨negative, m, k⟩ := by
  cases h with
  | @point whole fraction hwhole hne hfraction =>
      obtain ⟨hdigits, hrest⟩ := parts_of_isWhole hwhole fraction (c := '.') (by decide)
      have hgroup := digitGroup_of_isDigit hne hfraction
      have htake : fraction.takeWhile (!isPowerMark ·) = fraction :=
        List.takeWhile_eq_self_iff.mpr fun c hc => isPowerMark_of_isDigit (hfraction c hc)
      have hdrop : fraction.dropWhile (!isPowerMark ·) = [] :=
        List.dropWhile_eq_nil_iff.mpr fun c hc => isPowerMark_of_isDigit (hfraction c hc)
      simp only [scientific?, hsign, hdigits, hrest, htake, hdrop, hgroup, Option.bind_eq_bind,
        Option.bind_some, zero_sub]
      rfl
  | @power whole hwhole k =>
      obtain ⟨hdigits, hrest⟩ := parts_of_isWhole hwhole (toString k).toList (c := 'e') (by decide)
      simp only [scientific?, hsign, hdigits, hrest, Option.bind_eq_bind, Option.bind_some]
      change (power? (toString k).toList).bind _ = _
      rw [power?_toString k]
      rfl
  | @pointPower whole fraction hwhole hne hfraction k =>
      obtain ⟨hdigits, hrest⟩ := parts_of_isWhole hwhole
        (fraction ++ 'e' :: (toString k).toList) (c := '.') (by decide)
      have hgroup := digitGroup_of_isDigit hne hfraction
      have hrun (c : Char) (hc : c ∈ fraction) := isPowerMark_of_isDigit (hfraction c hc)
      have hstop : ∀ c, ('e' :: (toString k).toList).head? = some c →
          (!isPowerMark c) = false := by
        intro c hc
        obtain rfl : 'e' = c := Option.some.inj hc
        rfl
      simp only [scientific?, hsign, hdigits, hrest, takeWhile_run hrun hstop,
        dropWhile_run hrun hstop, hgroup, power?_toString k, Option.bind_eq_bind, Option.bind_some]
      rfl

end

/-! ## Literals -/

theorem isAtomChar_of_isDigit {c : Char} (h : isDigit c = true) : isAtomChar c = true := by
  simp [isAtomChar, h]

theorem isAtomChar_of_mem_toString {k : ℤ} {c : Char} (h : c ∈ (toString k).toList) :
    isAtomChar c = true := by
  cases k with
  | ofNat n =>
      rw [toList_toString_ofNat] at h
      exact isAtomChar_of_isDigit (Whole.isDigit_of_mem_toDigits h)
  | negSucc n =>
      rw [toList_toString_negSucc] at h
      rcases List.mem_cons.mp h with rfl | h
      · decide
      · exact isAtomChar_of_isDigit (Whole.isDigit_of_mem_toDigits h)

section

variable {body : List Char} {m : ℕ} {k : ℤ}

theorem isAtomChar_of_isNumeral (h : IsNumeral body m k) : ∀ c ∈ body, isAtomChar c = true := by
  have hdigits {ds : List Char} (hds : ∀ c ∈ ds, isDigit c = true) :
      ∀ c ∈ ds, isAtomChar c = true := fun c hc => isAtomChar_of_isDigit (hds c hc)
  cases h with
  | point hwhole hne hfraction =>
      simp only [List.forall_mem_append, List.forall_mem_cons]
      exact ⟨hdigits hwhole.digits, by decide, hdigits hfraction⟩
  | power hwhole k =>
      simp only [List.forall_mem_append, List.forall_mem_cons]
      exact ⟨hdigits hwhole.digits, by decide, fun c hc => isAtomChar_of_mem_toString hc⟩
  | pointPower hwhole hne hfraction k =>
      simp only [List.forall_mem_append, List.forall_mem_cons]
      exact ⟨hdigits hwhole.digits, by decide, hdigits hfraction, by decide,
        fun c hc => isAtomChar_of_mem_toString hc⟩

theorem exists_eq_append_of_isNumeral (h : IsNumeral body m k) :
    ∃ whole c rest, body = whole ++ c :: rest ∧ IsWhole whole ∧ (c = '.' ∨ c = 'e') := by
  cases h with
  | point hwhole hne hfraction => exact ⟨_, _, _, rfl, hwhole, .inl rfl⟩
  | power hwhole k => exact ⟨_, _, _, rfl, hwhole, .inr rfl⟩
  | pointPower hwhole hne hfraction k => exact ⟨_, _, _, rfl, hwhole, .inl rfl⟩

theorem isDateTime_of_isNumeral (h : IsNumeral body m k) : isDateTime body = false := by
  obtain ⟨whole, c, rest, rfl, hwhole, hc⟩ := exists_eq_append_of_isNumeral h
  have hstop : ∀ d, (c :: rest).head? = some d → isDigit d = false := by
    intro d hd
    obtain rfl : c = d := Option.some.inj hd
    rcases hc with rfl | rfl <;> decide
  apply isDateTime_eq_false
  · rw [dropWhile_run hwhole.digits hstop]
    rcases hc with rfl | rfl <;> simp
  · rw [dropWhile_run hwhole.digits hstop]
    rcases hc with rfl | rfl <;> simp

theorem exists_eq_cons_of_isNumeral (h : IsNumeral body m k) :
    ∃ c rest, body = c :: rest ∧ isDigit c = true := by
  obtain ⟨whole, c, rest, rfl, hwhole, -⟩ := exists_eq_append_of_isNumeral h
  obtain ⟨d, ds, rfl⟩ := List.exists_cons_of_ne_nil hwhole.ne_nil
  exact ⟨d, _, rfl, hwhole.digits d List.mem_cons_self⟩

theorem takeSign_of_isNumeral (h : IsNumeral body m k) (negative : Bool) :
    Scientific.takeSign ((if negative then ['-'] else []) ++ body) = (negative, body) := by
  cases negative with
  | true => rfl
  | false =>
      obtain ⟨c, rest, rfl, hc⟩ := exists_eq_cons_of_isNumeral h
      exact takeSign_of_isDigit hc rest

theorem beq_infinity_of_isFinite {x : Float} (h : x.isFinite = true) :
    (x == Float.ofBits 0x7FF0000000000000) = false := by
  have hinfinity : (Float.ofBits 0x7FF0000000000000).toModel.unpack = .infinity .positive := rfl
  change x.toModel.unpack.isFinite = true at h
  change (x.toModel.unpack.compare (Float.ofBits 0x7FF0000000000000).toModel.unpack == some .eq) =
    false
  rw [hinfinity]
  cases hx : x.toModel.unpack with
  | infinity sign => simp [hx, Float.Model.UnpackedFloat.isFinite] at h
  | notANumber => rfl
  | zero sign => rfl
  | finite sign n e hn => cases sign <;> rfl

/-- A literal is taken for none of the words that begin with letters. -/
theorem atom?_of_isNumeral (h : IsNumeral body m k) {negative : Bool} {x : Float}
    (hx : (Scientific.mk negative m k).toFloat = x) (hfinite : x.isFinite = true) :
    atom? ((if negative then ['-'] else []) ++ body) = some (.float x) := by
  have hsign := takeSign_of_isNumeral h negative
  obtain ⟨c, rest, hbody, hc⟩ := exists_eq_cons_of_isNumeral h
  have hne {word : List Char} (hword : word.head?.map isDigit = some false) : body ≠ word := by
    rintro rfl
    rw [hbody, List.head?_cons, Option.map_some, hc] at hword
    exact absurd hword (by decide)
  have hsigned {word : List Char} (hword : word.head?.map isDigit = some false)
      (hplain : Scientific.takeSign word = (false, word)) :
      (if negative then ['-'] else []) ++ body ≠ word := by
    intro heq
    rw [heq, hplain] at hsign
    exact hne hword (Prod.mk.inj hsign).2.symm
  have hfloat : float? ((if negative then ['-'] else []) ++ body) = some x := by
    simp only [float?, hsign, scientific?_of_isNumeral hsign h]
    rw [if_neg (hne (by decide)), if_neg (hne (by decide))]
    simp only [Option.bind_eq_bind, Option.bind_some, hx, beq_infinity_of_isFinite hfinite]
    rfl
  have hdate : isDateTime ((if negative then ['-'] else []) ++ body) = false := by
    cases negative with
    | true => exact isDateTime_dash body
    | false => exact isDateTime_of_isNumeral h
  rw [atom?, if_neg (hsigned (by decide) (by decide)), if_neg (hsigned (by decide) (by decide)),
    hdate, hfloat]
  rfl

end

open Numeric.Written (asLiteral)

theorem exists_isNumeral_of_zero (sign : Float.Model.UnpackedFloat.Sign) :
    ∃ body m k, Written.chars Written.literal (.ofUnpacked (.zero sign)) =
        (if Binary.isNegative sign then ['-'] else []) ++ body ∧ IsNumeral body m k ∧
      (Scientific.mk (Binary.isNegative sign) m k).toFloat = .ofModel (.pack (.zero sign)) := by
  have hzero : ∀ c ∈ ['0'], isDigit c = true := List.forall_mem_singleton.mpr rfl
  have hwhole : IsWhole ['0'] := ⟨List.cons_ne_nil '0' [], hzero, fun _ => rfl⟩
  refine ⟨_, _, _, rfl, .point hwhole (List.cons_ne_nil '0' []) hzero, ?_⟩
  cases sign with
  | negative => rfl
  | positive => rfl

theorem exists_isNumeral_of_isDouble {n : ℕ} {e : ℤ} (h : Rounding.IsDouble n e)
    (sign : Float.Model.UnpackedFloat.Sign) :
    ∃ body m k, Written.chars Written.literal (.ofUnpacked (.finite sign n e h.pos)) =
        (if Binary.isNegative sign then ['-'] else []) ++ body ∧ IsNumeral body m k ∧
      (Scientific.mk (Binary.isNegative sign) m k).toFloat =
        .ofModel (.pack (.finite sign n e h.pos)) := by
  have hnear := Shortest.near_decimal h
  obtain ⟨m, k, hnumeral, hvalue⟩ :=
    Written.hasValue_magnitude (Decimals.ne_zero_of_near h hnear)
  rw [← hvalue] at hnear
  have hread := Decimals.toFloat_of_near h (s := ⟨Binary.isNegative sign, m, k⟩) hnear
  refine ⟨_, m, k, ?_, hnumeral, ?_⟩
  · rw [Binary.ofUnpacked, Written.chars, if_neg h.pos.ne']
  · rw [hread]
    simp only [Decimals.signOf_isNegative]

/-- The literal of a finite number is a numeral that reads as that number. -/
theorem exists_isNumeral_of_isFinite {x : Float} (h : x.isFinite = true) :
    ∃ negative body m k, (asLiteral x).toList = (if negative then ['-'] else []) ++ body ∧
      IsNumeral body m k ∧ (Scientific.mk negative m k).toFloat = x := by
  have hpack : Float.ofModel (.pack x.toModel.unpack) = x :=
    congrArg Float.ofModel (Packing.pack_unpack x.toModel)
  change x.toModel.unpack.isFinite = true at h
  rw [asLiteral, String.toList_ofList, Binary.ofFloat_eq]
  cases hx : x.toModel.unpack with
  | infinity sign => simp [hx, Float.Model.UnpackedFloat.isFinite] at h
  | notANumber => simp [hx, Float.Model.UnpackedFloat.isFinite] at h
  | zero sign =>
      rw [hx] at hpack
      rw [← hpack]
      exact ⟨_, exists_isNumeral_of_zero sign⟩
  | finite sign n e hn =>
      have hdouble := Packing.isDouble_of_unpack hx
      rw [hx] at hpack
      rw [← hpack]
      exact ⟨_, exists_isNumeral_of_isDouble hdouble sign⟩

theorem readsAs_asLiteral {x : Float} (h : x.isFinite = true) :
    ReadsAs (asLiteral x).toList (.float x) := by
  obtain ⟨negative, body, m, k, htext, hnumeral, hvalue⟩ := exists_isNumeral_of_isFinite h
  obtain ⟨c, rest, hbody, -⟩ := exists_eq_cons_of_isNumeral hnumeral
  have hchars : ∀ c ∈ (if negative then ['-'] else []) ++ body, isAtomChar c = true := by
    rw [List.forall_mem_append]
    refine ⟨?_, isAtomChar_of_isNumeral hnumeral⟩
    cases negative with
    | false => exact List.forall_mem_nil _
    | true => exact List.forall_mem_singleton.mpr rfl
  rw [htext]
  refine readsAs_word ?_ hchars (atom?_of_isNumeral hnumeral hvalue h)
  rw [hbody]
  exact List.append_ne_nil_of_right_ne_nil _ (List.cons_ne_nil c rest)

theorem readsAs_asLiteral_of_infinity {x : Float} {sign : Float.Model.UnpackedFloat.Sign}
    (h : x.toModel.unpack = .infinity sign) : ReadsAs (asLiteral x).toList (.float x) := by
  have hpack : Float.ofModel (.pack x.toModel.unpack) = x :=
    congrArg Float.ofModel (Packing.pack_unpack x.toModel)
  rw [asLiteral, String.toList_ofList, Binary.ofFloat_eq, ← hpack, h]
  cases sign with
  | positive => exact readsAs_word (by decide) (List.all_eq_true.mp rfl) rfl
  | negative => exact readsAs_word (by decide) (List.all_eq_true.mp rfl) rfl

theorem readsAs_asLiteral_of_isNaN_eq_false {x : Float} (h : x.isNaN = false) :
    ReadsAs (asLiteral x).toList (.float x) := by
  have hfinite (hno : x.toModel.unpack.isFinite = true) : x.isFinite = true := hno
  change x.toModel.unpack.isNaN = false at h
  cases hx : x.toModel.unpack with
  | notANumber => exact absurd h (by rw [hx]; exact nofun)
  | infinity sign => exact readsAs_asLiteral_of_infinity hx
  | zero sign => exact readsAs_asLiteral (hfinite (by rw [hx]; rfl))
  | finite sign n e hn => exact readsAs_asLiteral (hfinite (by rw [hx]; rfl))

/-- What is no number has a literal that is no word of the language. -/
theorem asLiteral_of_isNaN {x : Float} (h : x.isNaN = true) : asLiteral x = "NaN" := by
  rw [asLiteral, Binary.ofFloat_eq, unpack_eq_notANumber h]
  rfl

end DepthRaster.Toml
