import ClassScript.Number.Binary
import Mathlib

/-! # The bits of finite doubles

A double is finite if its exponent bits are not all set.  A finite double is its bits: they are made of a sign, an
exponent and a fraction, changing the sign changes only the first of them, and every bit pattern of this
kind is a double of its own.
-/

namespace ClassScript.Number

open Float.Model (Format UnpackedFloat)
open Float.Model.UnpackedFloat (Sign packComponents packComponents_unpackSign_unpackExponent_unpackMantissa
  unpackExponent_packComponents unpackMantissa_packComponents unpackSign_packComponents)

/-! ## Sign, exponent and fraction -/

abbrev parts (sign : Sign) (exponent : BitVec 11) (fraction : BitVec 52) :
    BitVec Format.binary64.numBits :=
  packComponents Format.binary64 sign exponent fraction

section Parts

variable {sign : Sign} {exponent : BitVec 11} {fraction : BitVec 52}

theorem toNat_parts : (parts sign exponent fraction).toNat =
    sign.toBitVec.toNat * 2 ^ 63 + exponent.toNat * 2 ^ 52 + fraction.toNat := by
  have front : (sign.toBitVec ++ exponent).toNat = sign.toBitVec.toNat * 2 ^ 11 + exponent.toNat := by
    rw [BitVec.toNat_append, ← Nat.shiftLeft_add_eq_or_of_lt exponent.isLt, Nat.shiftLeft_eq]
  have whole : (sign.toBitVec ++ exponent ++ fraction).toNat =
      (sign.toBitVec ++ exponent).toNat * 2 ^ 52 + fraction.toNat := by
    rw [BitVec.toNat_append, ← Nat.shiftLeft_add_eq_or_of_lt fraction.isLt, Nat.shiftLeft_eq]
  rw [parts, packComponents, whole, front]
  omega

/-- All bits have a sign, an exponent and a fraction. -/
theorem exists_parts (bits : BitVec Format.binary64.numBits) :
    ∃ sign exponent fraction, bits = parts sign exponent fraction :=
  ⟨_, _, _, (packComponents_unpackSign_unpackExponent_unpackMantissa bits).symm⟩

/-- The bits of a finite double survive being taken apart and put together. -/
theorem pack_unpack_parts (finite : exponent ≠ -1#11) :
    UnpackedFloat.pack Format.binary64
        (UnpackedFloat.unpack Format.binary64 (parts sign exponent fraction)) =
      parts sign exponent fraction := by
  have number : ¬ UnpackedFloat.isNaNBits (parts sign exponent fraction) = true := by
    rw [UnpackedFloat.isNaNBits, unpackExponent_packComponents, decide_eq_true_eq]
    exact fun all => finite all.1
  rw [UnpackedFloat.pack_unpack, if_neg number]

/-- A change of sign leaves exponent and fraction. -/
theorem neg_unpack :
    (UnpackedFloat.unpack Format.binary64 (parts sign exponent fraction)).neg =
      UnpackedFloat.unpack Format.binary64 (parts (-sign) exponent fraction) := by
  simp only [UnpackedFloat.unpack, unpackMantissa_packComponents, unpackExponent_packComponents,
    unpackSign_packComponents, Sign.ofBitVec_toBitVec]
  split
  · split <;> rfl
  · split
    · split <;> rfl
    · rfl

theorem isFinite_unpack (finite : exponent ≠ -1#11) :
    (UnpackedFloat.unpack Format.binary64 (parts sign exponent fraction)).isFinite = true := by
  simp only [UnpackedFloat.unpack, unpackMantissa_packComponents, unpackExponent_packComponents,
    if_neg finite]
  split
  · split <;> rfl
  · rfl

theorem unpack_infinite : UnpackedFloat.unpack Format.binary64 (parts sign (-1#11) 0#52) =
    .infinity sign := by
  simp only [UnpackedFloat.unpack, unpackMantissa_packComponents, unpackExponent_packComponents,
    unpackSign_packComponents, Sign.ofBitVec_toBitVec, if_true]

theorem toNat_toBitVec_le (sign : Sign) : sign.toBitVec.toNat ≤ 1 := by
  cases sign <;> decide

/-- The exponent bits are all set beyond the largest double. -/
theorem toNat_parts_mod_lt :
    (parts sign exponent fraction).toNat % 2 ^ 63 < 2047 * 2 ^ 52 ↔ exponent ≠ -1#11 := by
  have fractionLt := fraction.isLt
  have exponentLt := exponent.isLt
  have bit := toNat_toBitVec_le sign
  have all : exponent = -1#11 ↔ exponent.toNat = 2047 :=
    ⟨fun all => by rw [all]; rfl, fun all => BitVec.eq_of_toNat_eq all⟩
  rw [ne_eq, all, toNat_parts]
  omega

end Parts

/-! ## Finite doubles -/

def Finite (x : Float) : Prop := x.toBits.toNat % 2 ^ 63 < 2047 * 2 ^ 52

theorem toBits_ofBits {bits : UInt64} (finite : bits.toNat % 2 ^ 63 < 2047 * 2 ^ 52) :
    (Float.ofBits bits).toBits = bits := by
  obtain ⟨sign, exponent, fraction, is⟩ := exists_parts bits.toBitVec
  have same : UnpackedFloat.pack Format.binary64 (UnpackedFloat.unpack Format.binary64 bits.toBitVec) =
      bits.toBitVec := by
    rw [is]
    exact pack_unpack_parts (toNat_parts_mod_lt.1 (by rwa [← is]))
  show UInt64.ofBitVec (UnpackedFloat.pack Format.binary64 _) = bits
  rw [same, UInt64.ofBitVec_toBitVec]

namespace Finite

variable {x : Float}

theorem exists_parts (finite : Finite x) :
    ∃ sign exponent fraction, exponent ≠ -1#11 ∧ x.toBits.toBitVec = parts sign exponent fraction := by
  obtain ⟨sign, exponent, fraction, is⟩ := Number.exists_parts x.toBits.toBitVec
  exact ⟨sign, exponent, fraction, toNat_parts_mod_lt.1 (by rwa [← is]), is⟩

theorem isFinite (finite : Finite x) : x.isFinite = true := by
  obtain ⟨sign, exponent, fraction, notAll, is⟩ := finite.exists_parts
  show (UnpackedFloat.unpack Format.binary64 x.toBits.toBitVec).isFinite = true
  rw [is]
  exact isFinite_unpack notAll

theorem isNaN_eq_false (finite : Finite x) : x.isNaN = false := by
  have isFinite : x.toModel.unpack.isFinite = true := finite.isFinite
  show x.toModel.unpack.isNaN = false
  cases is : x.toModel.unpack with
  | notANumber =>
    rw [is] at isFinite
    cases isFinite
  | _ => rfl

theorem isInf_eq_false (finite : Finite x) : x.isInf = false := by
  have isFinite : x.toModel.unpack.isFinite = true := finite.isFinite
  show x.toModel.unpack.isInf = false
  cases is : x.toModel.unpack with
  | infinity sign =>
    rw [is] at isFinite
    cases isFinite
  | _ => rfl

/-- A change of sign turns the first bit over. -/
theorem toBits_neg (finite : Finite x) : (-x).toBits.toNat = (x.toBits.toNat + 2 ^ 63) % 2 ^ 64 := by
  obtain ⟨sign, exponent, fraction, notAll, is⟩ := finite.exists_parts
  have same : UnpackedFloat.pack Format.binary64
      (UnpackedFloat.unpack Format.binary64 x.toBits.toBitVec).neg = parts (-sign) exponent fraction := by
    rw [is, neg_unpack, pack_unpack_parts notAll]
  have bits : x.toBits.toNat = (parts sign exponent fraction).toNat := congrArg BitVec.toNat is
  show (UnpackedFloat.pack Format.binary64
    (UnpackedFloat.unpack Format.binary64 x.toBits.toBitVec).neg).toNat = _
  rw [same, bits, toNat_parts, toNat_parts]
  have fractionLt := fraction.isLt
  have exponentLt := exponent.isLt
  cases sign with
  | positive =>
    rw [show (-Sign.positive).toBitVec.toNat = 1 from rfl, show Sign.positive.toBitVec.toNat = 0 from rfl]
    omega
  | negative =>
    rw [show (-Sign.negative).toBitVec.toNat = 0 from rfl, show Sign.negative.toBitVec.toNat = 1 from rfl]
    omega

theorem neg (finite : Finite x) : Finite (-x) := by
  rw [Finite, finite.toBits_neg]
  have small := x.toBits.toNat_lt
  rw [Finite] at finite
  omega

theorem neg_neg (finite : Finite x) : - -x = x := by
  have small := x.toBits.toNat_lt
  refine Float.toBits_inj.1 (UInt64.toNat_inj.1 ?_)
  rw [finite.neg.toBits_neg, finite.toBits_neg]
  omega

theorem isNegative_neg (finite : Finite x) : isNegative (-x) = !isNegative x := by
  have small := x.toBits.toNat_lt
  have pow : Nat.pow 2 63 = 2 ^ 63 := rfl
  rw [isNegative, isNegative, finite.toBits_neg, ← decide_not, decide_eq_decide, pow]
  omega

end Finite

/-- Bits up to those of infinity are those of a finite double or of infinity. -/
theorem finite_ofBits {bits : UInt64} (most : bits.toNat % 2 ^ 63 ≤ 2047 * 2 ^ 52)
    (notInf : (Float.ofBits bits).isInf = false) : Finite (Float.ofBits bits) := by
  by_cases finite : bits.toNat % 2 ^ 63 < 2047 * 2 ^ 52
  · rwa [Finite, toBits_ofBits finite]
  · exfalso
    obtain ⟨sign, exponent, fraction, is⟩ := exists_parts bits.toBitVec
    have bitsIs : bits.toNat = (parts sign exponent fraction).toNat := congrArg BitVec.toNat is
    have fractionLt := fraction.isLt
    have exponentLt := exponent.isLt
    have bit := toNat_toBitVec_le sign
    rw [bitsIs] at most finite
    -- The exponent has all its bits set and the fraction none, which leaves only infinity.
    have all : exponent = -1#11 := Classical.not_not.1 fun notAll => finite (toNat_parts_mod_lt.2 notAll)
    have none : fraction = 0#52 := by
      apply BitVec.eq_of_toNat_eq
      have allNat : exponent.toNat = 2047 := by rw [all]; rfl
      rw [toNat_parts, allNat] at most
      simp only [BitVec.toNat_zero]
      omega
    subst all none
    have infinite : (Float.ofBits bits).toModel.unpack = .infinity sign := by
      show UnpackedFloat.unpack Format.binary64
        (UnpackedFloat.pack Format.binary64 (UnpackedFloat.unpack Format.binary64 bits.toBitVec)) = _
      rw [is, unpack_infinite]
      exact unpack_infinite
    have isInf : (Float.ofBits bits).isInf = true := by
      show (Float.ofBits bits).toModel.unpack.isInf = true
      rw [infinite]
      rfl
    rw [isInf] at notInf
    cases notInf

/-! ## Infinite doubles -/

theorem exists_infinity {x : Float} (infinite : x.isInf = true) : ∃ sign, x.toModel.unpack = .infinity sign := by
  have isInf : x.toModel.unpack.isInf = true := infinite
  cases is : x.toModel.unpack with
  | infinity sign => exact ⟨sign, rfl⟩
  | _ =>
    rw [is] at isInf
    cases isInf

theorem isNaN_of_isInf {x : Float} (infinite : x.isInf = true) : x.isNaN = false := by
  obtain ⟨sign, is⟩ := exists_infinity infinite
  show x.toModel.unpack.isNaN = false
  rw [is]
  rfl

theorem isInf_neg {x : Float} (infinite : x.isInf = true) : (-x).isInf = true := by
  obtain ⟨sign, is⟩ := exists_infinity infinite
  show (UnpackedFloat.unpack Format.binary64 (UnpackedFloat.pack Format.binary64 x.toModel.unpack.neg)).isInf = true
  rw [is]
  cases sign <;> decide

end ClassScript.Number
