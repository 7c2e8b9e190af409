import DepthRaster.Numeric.Binary
import DepthRaster.Proofs.Numeric.Rounding
/-!
# Doubles and their bits

A double is unpacked into a sign, a mantissa and an exponent as its fields say, and packing them
gives it back. What its bits stand for is what it is unpacked into.
-/

namespace DepthRaster.Numeric

open Float.Model Float.Model.UnpackedFloat
open Rounding (IsDouble)

namespace Packing

/-! ## Fields -/

section

variable (bits : BitVec 64)

theorem toNat_unpackMantissa :
    (@unpackMantissa Format.binary64 bits).toNat = bits.toNat % 2 ^ 52 := by
  simp only [unpackMantissa, BitVec.toNat_cast, BitVec.extractLsb_toNat, Nat.shiftRight_zero]

theorem toNat_unpackExponent :
    (@unpackExponent Format.binary64 bits).toNat = bits.toNat / 2 ^ 52 % 2 ^ 11 := by
  simp only [unpackExponent, BitVec.toNat_cast, BitVec.extractLsb_toNat,
    Nat.shiftRight_eq_div_pow]

theorem toNat_unpackSign : (@unpackSign Format.binary64 bits).toNat = bits.toNat / 2 ^ 63 % 2 := by
  simp only [unpackSign, BitVec.toNat_cast, BitVec.extractLsb_toNat, Nat.shiftRight_eq_div_pow]

end

theorem toNat_packComponents (sign : Sign) (exponent : BitVec 11) (mantissa : BitVec 52) :
    (packComponents Format.binary64 sign exponent mantissa).toNat =
      sign.toBitVec.toNat * 2 ^ 63 + exponent.toNat * 2 ^ 52 + mantissa.toNat := by
  simp only [packComponents, BitVec.toNat_append]
  rw [← Nat.shiftLeft_add_eq_or_of_lt mantissa.isLt, ← Nat.shiftLeft_add_eq_or_of_lt exponent.isLt]
  simp only [Nat.shiftLeft_eq]
  omega

theorem toBitVec_ofBitVec (b : BitVec 1) : (Sign.ofBitVec b).toBitVec = b := by
  revert b
  decide

theorem ofBitVec_toBitVec (sign : Sign) : Sign.ofBitVec sign.toBitVec = sign := by
  cases sign with
  | negative => rfl
  | positive => rfl

theorem packComponents_unpack (bits : BitVec 64) :
    packComponents Format.binary64 (Sign.ofBitVec (@unpackSign Format.binary64 bits))
      (@unpackExponent Format.binary64 bits) (@unpackMantissa Format.binary64 bits) = bits := by
  have hbits := bits.isLt
  apply BitVec.eq_of_toNat_eq
  rw [toNat_packComponents, toBitVec_ofBitVec, toNat_unpackSign, toNat_unpackExponent,
    toNat_unpackMantissa]
  omega

theorem unpackSign_packComponents (sign : Sign) (exponent : BitVec 11) (mantissa : BitVec 52) :
    @unpackSign Format.binary64 (packComponents Format.binary64 sign exponent mantissa) =
      sign.toBitVec := by
  have hsign := sign.toBitVec.isLt
  have hexponent := exponent.isLt
  have hmantissa := mantissa.isLt
  apply BitVec.eq_of_toNat_eq
  rw [toNat_unpackSign, toNat_packComponents]
  omega

/-! ## Unpacking -/

inductive Unpacks (sign : Sign) (field fraction : ℕ) : UnpackedFloat → Prop
  | infinity (hfield : field = 2047) (hfraction : fraction = 0) :
      Unpacks sign field fraction (.infinity sign)
  | notANumber (hfield : field = 2047) (hfraction : fraction ≠ 0) :
      Unpacks sign field fraction .notANumber
  | zero (hfield : field = 0) (hfraction : fraction = 0) : Unpacks sign field fraction (.zero sign)
  | subnormal (hfield : field = 0) (hfraction : 0 < fraction) :
      Unpacks sign field fraction (.finite sign fraction (-1074) hfraction)
  | normal (hlow : 0 < field) (hhigh : field < 2047) :
      Unpacks sign field fraction
        (.finite sign (fraction + 2 ^ 52) (field - 1075) (Nat.add_pos_right fraction (by decide)))

theorem toNat_one_append (b : BitVec 52) : (1#1 ++ b).toNat = b.toNat + 2 ^ 52 := by
  rw [BitVec.toNat_append, ← Nat.shiftLeft_add_eq_or_of_lt b.isLt, BitVec.toNat_ofNat,
    Nat.shiftLeft_eq]
  omega

theorem unpacks (bits : BitVec 64) :
    Unpacks (Sign.ofBitVec (@unpackSign Format.binary64 bits))
      (@unpackExponent Format.binary64 bits).toNat (@unpackMantissa Format.binary64 bits).toNat
      (UnpackedFloat.unpack Format.binary64 bits) := by
  have hbias : Format.binary64.exponentBias = 1023 := rfl
  have hlt : (@unpackExponent Format.binary64 bits).toNat < 2048 :=
    (@unpackExponent Format.binary64 bits).isLt
  unfold UnpackedFloat.unpack
  dsimp only
  split_ifs with htop hfraction hfield hfraction
  · exact .infinity (by rw [htop]; rfl) (by rw [hfraction]; rfl)
  · exact .notANumber (by rw [htop]; rfl) fun h => hfraction (BitVec.eq_of_toNat_eq h)
  · exact .zero (by rw [hfield]; rfl) (by rw [hfraction]; rfl)
  · have hzero : (@unpackExponent Format.binary64 bits).toNat = 0 := by
      rw [hfield]
      rfl
    have hpos : (@unpackMantissa Format.binary64 bits).toNat ≠ 0 :=
      fun h => hfraction (BitVec.eq_of_toNat_eq h)
    convert Unpacks.subnormal hzero (Nat.pos_of_ne_zero hpos) using 2
    rw [hzero]
    rfl
  · have hpos : (@unpackExponent Format.binary64 bits).toNat ≠ 0 :=
      fun h => hfield (BitVec.eq_of_toNat_eq h)
    have hne : (@unpackExponent Format.binary64 bits).toNat ≠ 2047 :=
      fun h => htop (BitVec.eq_of_toNat_eq h)
    convert Unpacks.normal (Nat.pos_of_ne_zero hpos) (by omega) using 2
    · exact toNat_one_append _
    · rw [hbias]
      omega

theorem unpacks_model (x : Float.Model) :
    Unpacks (Sign.ofBitVec (@unpackSign Format.binary64 x.toBits.toBitVec))
      (@unpackExponent Format.binary64 x.toBits.toBitVec).toNat
      (@unpackMantissa Format.binary64 x.toBits.toBitVec).toNat x.unpack :=
  unpacks x.toBits.toBitVec

theorem Unpacks.isDouble {sign s : Sign} {field fraction n : ℕ} {e : ℤ} {hn : 0 < n}
    (h : Unpacks sign field fraction (.finite s n e hn)) (hfraction : fraction < 2 ^ 52) :
    IsDouble n e := by
  cases h with
  | subnormal hfield hpos => exact ⟨hpos, by omega, by omega, by omega, .inr rfl⟩
  | normal hlow hhigh => exact ⟨by omega, by omega, by omega, by omega, .inl (by omega)⟩

theorem isDouble_of_unpack {x : Float.Model} {sign : Sign} {n : ℕ} {e : ℤ} {hn : 0 < n}
    (h : x.unpack = .finite sign n e hn) : IsDouble n e := by
  have hfields := unpacks_model x
  rw [h] at hfields
  exact hfields.isDouble (@unpackMantissa Format.binary64 x.toBits.toBitVec).isLt

/-! ## Packing -/

def fieldOf (n : ℕ) (e : ℤ) : ℕ := if n < 2 ^ 52 then 0 else (e + 1075).toNat

theorem fieldOf_lt {n : ℕ} {e : ℤ} (h : IsDouble n e) : fieldOf n e < 2047 := by
  have hgreatest := h.greatest
  unfold fieldOf
  split_ifs <;> omega

theorem pack_double {n : ℕ} {e : ℤ} (h : IsDouble n e) (sign : Sign) :
    UnpackedFloat.pack Format.binary64 (.finite sign n e h.pos) =
      packComponents Format.binary64 sign (BitVec.ofNat 11 (fieldOf n e)) (BitVec.ofNat 52 n) := by
  have hbias : Format.binary64.exponentBias = 1023 := rfl
  have hbits : Format.binary64.mantissaBits = 53 := rfl
  have hlog : n.log2 < 53 := (Nat.log2_lt h.pos.ne').mpr h.lt
  have hfield : (e + (1023 : ℕ) + (52 : ℕ)).toNat = (e + 1075).toNat := by omega
  have hleast := h.least
  have hgreatest := h.greatest
  simp only [UnpackedFloat.pack, hbias, hbits, hfield]
  rw [if_neg (by omega), fieldOf]
  by_cases hsmall : n < 2 ^ 52
  · have hlow : n.log2 < 52 := (Nat.log2_lt h.pos.ne').mpr hsmall
    rw [if_neg (by omega), if_pos hsmall]
  · have hge : 52 ≤ n.log2 := (Nat.le_log2 h.pos.ne').mpr (Nat.le_of_not_lt hsmall)
    rw [if_pos (by omega), if_neg hsmall]

/-- Packing gives the fields back, unless they are those of no number. -/
theorem Unpacks.pack_eq {sign : Sign} {field : BitVec 11} {fraction : BitVec 52}
    {u : UnpackedFloat} (h : Unpacks sign field.toNat fraction.toNat u) (hu : u ≠ .notANumber) :
    UnpackedFloat.pack Format.binary64 u = packComponents Format.binary64 sign field fraction := by
  cases h with
  | infinity hfield hfraction =>
      obtain rfl : field = -1#11 := BitVec.eq_of_toNat_eq hfield
      obtain rfl : fraction = 0#52 := BitVec.eq_of_toNat_eq hfraction
      rfl
  | notANumber hfield hfraction => exact absurd rfl hu
  | zero hfield hfraction =>
      obtain rfl : field = 0#11 := BitVec.eq_of_toNat_eq hfield
      obtain rfl : fraction = 0#52 := BitVec.eq_of_toNat_eq hfraction
      rfl
  | subnormal hfield hpos =>
      have hdouble : IsDouble fraction.toNat (-1074) :=
        (Unpacks.subnormal hfield hpos : Unpacks sign _ _ _).isDouble fraction.isLt
      have hfieldOf : fieldOf fraction.toNat (-1074) = field.toNat := by
        rw [fieldOf, if_pos fraction.isLt, hfield]
      rw [pack_double hdouble, hfieldOf, BitVec.ofNat_toNat, BitVec.ofNat_toNat,
        BitVec.setWidth_eq, BitVec.setWidth_eq]
  | normal hlow hhigh =>
      have hdouble : IsDouble (fraction.toNat + 2 ^ 52) (field.toNat - 1075) :=
        (Unpacks.normal hlow hhigh : Unpacks sign _ _ _).isDouble fraction.isLt
      have hfieldOf : fieldOf (fraction.toNat + 2 ^ 52) (field.toNat - 1075) = field.toNat := by
        rw [fieldOf, if_neg (by omega)]
        omega
      have hmantissa : BitVec.ofNat 52 (fraction.toNat + 2 ^ 52) = fraction := by
        have hlt := fraction.isLt
        apply BitVec.eq_of_toNat_eq
        rw [BitVec.toNat_ofNat]
        omega
      rw [pack_double hdouble, hfieldOf, hmantissa, BitVec.ofNat_toNat, BitVec.setWidth_eq]

theorem pack_unpack (x : Float.Model) : .pack x.unpack = x := by
  have hfields := unpacks_model x
  have hbits : UnpackedFloat.pack Format.binary64 x.unpack = x.toBits.toBitVec := by
    by_cases hu : x.unpack = .notANumber
    · rw [hu] at hfields ⊢
      cases hfields with
      | notANumber hfield hfraction =>
          refine (x.valid.eq_packedNaN (BitVec.eq_of_toNat_eq hfield) fun h => ?_).symm
          exact hfraction (congrArg BitVec.toNat h)
    · rw [hfields.pack_eq hu]
      exact packComponents_unpack x.toBits.toBitVec
  obtain ⟨bits, hvalid⟩ := x
  simp only [Float.Model.pack, Float.Model.mk.injEq]
  exact UInt64.toBitVec_inj.mp hbits

theorem Unpacks.eq_finite {sign : Sign} {n : ℕ} {e : ℤ} {u : UnpackedFloat} (hdouble : IsDouble n e)
    (h : Unpacks sign (fieldOf n e) (n % 2 ^ 52) u) : u = .finite sign n e hdouble.pos := by
  have hlt := hdouble.lt
  have hpos := hdouble.pos
  have hleast := hdouble.least
  have hnormal := hdouble.normal
  have hfield := fieldOf_lt hdouble
  by_cases hsmall : n < 2 ^ 52
  · have hmod : n % 2 ^ 52 = n := Nat.mod_eq_of_lt hsmall
    obtain rfl := hnormal.resolve_left (by omega)
    rw [fieldOf, if_pos hsmall, hmod] at h
    cases h with
    | subnormal hfield hpos => rfl
    | _ => omega
  · rw [fieldOf, if_neg hsmall] at h hfield
    cases h with
    | normal hlow hhigh =>
        congr 1
        · omega
        · omega
    | _ => omega

theorem unpack_pack {n : ℕ} {e : ℤ} (h : IsDouble n e) (sign : Sign) :
    (Float.Model.pack (.finite sign n e h.pos)).unpack = .finite sign n e h.pos := by
  have hfields := unpacks (UnpackedFloat.pack Format.binary64 (.finite sign n e h.pos))
  rw [pack_double h, unpackSign_packComponents, unpackExponent_packComponents,
    unpackMantissa_packComponents, ofBitVec_toBitVec, BitVec.toNat_ofNat, BitVec.toNat_ofNat,
    Nat.mod_eq_of_lt (Nat.lt_trans (fieldOf_lt h) (by decide)), ← pack_double h] at hfields
  exact hfields.eq_finite h

end Packing

/-! ## What doubles stand for -/

namespace Binary

open Packing

def isNegative : Sign → Bool
  | .negative => true
  | .positive => false

def ofUnpacked : UnpackedFloat → Binary
  | .notANumber => .notANumber
  | .infinity sign => .infinite (isNegative sign)
  | .zero sign => .finite (isNegative sign) 0 (-1074)
  | .finite sign n e _ => .finite (isNegative sign) n e

section

variable (bits : UInt64)

theorem toNat_fraction :
    (bits &&& (((1 : UInt64) <<< BinaryLayout.double.fractionBits) - 1)).toNat =
      bits.toNat % 2 ^ 52 := by
  rw [UInt64.toNat_and]
  exact Nat.and_two_pow_sub_one_eq_mod bits.toNat 52

theorem toNat_field :
    ((bits >>> BinaryLayout.double.fractionBits) &&&
      (((1 : UInt64) <<< BinaryLayout.double.exponentBits) - 1)).toNat =
        bits.toNat / 2 ^ 52 % 2 ^ 11 := by
  rw [UInt64.toNat_and, UInt64.toNat_shiftRight, Nat.shiftRight_eq_div_pow]
  exact Nat.and_two_pow_sub_one_eq_mod (bits.toNat / 2 ^ 52) 11

theorem toNat_signBit :
    ((bits >>> (BinaryLayout.double.fractionBits + BinaryLayout.double.exponentBits)) &&&
      1).toNat = bits.toNat / 2 ^ 63 % 2 := by
  rw [UInt64.toNat_and, UInt64.toNat_shiftRight, Nat.shiftRight_eq_div_pow]
  exact Nat.and_two_pow_sub_one_eq_mod (bits.toNat / 2 ^ 63) 1

theorem beq_eq_decide_toNat (a b : UInt64) : (a == b) = decide (a.toNat = b.toNat) := by
  rw [Bool.eq_iff_iff, beq_iff_eq, decide_eq_true_eq, UInt64.toNat_inj]

theorem ofBits_double :
    ofBits .double bits =
      if bits.toNat / 2 ^ 52 % 2 ^ 11 = 2047 then
        if bits.toNat % 2 ^ 52 = 0 then infinite (decide (bits.toNat / 2 ^ 63 % 2 = 1))
        else notANumber
      else if bits.toNat / 2 ^ 52 % 2 ^ 11 = 0 then
        finite (decide (bits.toNat / 2 ^ 63 % 2 = 1)) (bits.toNat % 2 ^ 52) (-1074)
      else
        finite (decide (bits.toNat / 2 ^ 63 % 2 = 1)) (bits.toNat % 2 ^ 52 + 2 ^ 52)
          (-1075 + (bits.toNat / 2 ^ 52 % 2 ^ 11 : ℕ)) := by
  simp only [ofBits, beq_eq_decide_toNat, toNat_fraction, toNat_field, toNat_signBit,
    decide_eq_true_eq]
  rfl

end

theorem isNegative_ofBitVec (b : BitVec 1) :
    isNegative (Sign.ofBitVec b) = decide (b.toNat = 1) := by
  revert b
  decide

theorem ofFloat_eq (x : Float) : ofFloat x = ofUnpacked x.toModel.unpack := by
  have hfields := unpacks_model x.toModel
  have hsign := isNegative_ofBitVec (@unpackSign Format.binary64 x.toModel.toBits.toBitVec)
  rw [toNat_unpackExponent, toNat_unpackMantissa, UInt64.toNat_toBitVec] at hfields
  rw [toNat_unpackSign, UInt64.toNat_toBitVec] at hsign
  rw [ofFloat, Float.toBits, ofBits_double, ← hsign]
  generalize x.toModel.unpack = u at hfields ⊢
  cases hfields with
  | infinity hfield hfraction =>
      rw [if_pos hfield, if_pos hfraction]
      rfl
  | notANumber hfield hfraction =>
      rw [if_pos hfield, if_neg hfraction]
      rfl
  | zero hfield hfraction =>
      rw [if_neg (by omega), if_pos hfield, hfraction]
      rfl
  | subnormal hfield hpos =>
      rw [if_neg (by omega), if_pos hfield]
      rfl
  | normal hlow hhigh =>
      rw [if_neg (by omega), if_neg (by omega), ofUnpacked]
      congr 1

end Binary

end DepthRaster.Numeric
