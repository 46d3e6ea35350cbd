import Mathlib
import StagedMapping.Number.Binary64

/-! Bit patterns of doubles. The pattern is the sign, the exponent and the fraction
(`toNat_toBits`); the exponent tells whether the double is finite (`isUnbounded_iff`), and the
absolute value of a finite one clears the sign (`toNat_toBits_abs`). So a finite double is its
sign and its size (`eq_of_abs_eq`). -/
namespace StagedMapping.Number
open Float.Model Float.Model.UnpackedFloat

/-- No number, or an infinite one. -/
def isUnbounded (x : Float) : Bool := x.isNaN || x.isInf

/-! ### Sign, exponent and fraction -/

theorem toNat_packComponents (s : Sign) (e : BitVec 11) (m : BitVec 52) :
    (packComponents Format.binary64 s e m).toNat =
      s.toBitVec.toNat * 2 ^ 63 + e.toNat * 2 ^ 52 + m.toNat := by
  have he := e.isLt
  have hm := m.isLt
  simp only [packComponents, BitVec.toNat_append]
  rw [← Nat.shiftLeft_add_eq_or_of_lt he, ← Nat.shiftLeft_add_eq_or_of_lt hm]
  simp only [Nat.shiftLeft_eq]
  omega

theorem toNat_unpackExponent (x : Float) :
    (@unpackExponent Format.binary64 x.toBits.toBitVec).toNat = exponentBits x := by
  simp [unpackExponent, exponentBits, Nat.shiftRight_eq_div_pow]

theorem toNat_unpackMantissa (x : Float) :
    (@unpackMantissa Format.binary64 x.toBits.toBitVec).toNat = fractionBits x := by
  simp [unpackMantissa, fractionBits]

theorem toNat_toBits (x : Float) :
    x.toBits.toNat =
      (if signBit x then 2 ^ 63 else 0) + exponentBits x * 2 ^ 52 + fractionBits x := by
  have lt := x.toBits.toNat_lt
  unfold signBit exponentBits fractionBits
  simp only [Nat.pow_eq]
  split
  · simp_all
    omega
  · simp_all
    omega

theorem eq_of_toBits {x y : Float} (h : x.toBits = y.toBits) : x = y := by
  obtain ⟨⟨bits, _⟩⟩ := x
  obtain ⟨⟨bits', _⟩⟩ := y
  cases (h : bits = bits')
  rfl

/-! ### Doubles that are not finite -/

theorem isUnbounded_iff (x : Float) : isUnbounded x = true ↔ exponentBits x = 2047 := by
  rw [← toNat_unpackExponent]
  show (UnpackedFloat.isNaN (UnpackedFloat.unpack Format.binary64 x.toBits.toBitVec) ||
    UnpackedFloat.isInf (UnpackedFloat.unpack Format.binary64 x.toBits.toBitVec)) = true ↔ _
  rw [UnpackedFloat.unpack]
  dsimp only
  split
  case isTrue ones =>
    rw [ones]
    split <;> simp [UnpackedFloat.isNaN, UnpackedFloat.isInf]
  case isFalse ones =>
    have less : (@unpackExponent Format.binary64 x.toBits.toBitVec).toNat ≠ 2047 :=
      fun h => ones (BitVec.eq_of_toNat_eq h)
    split
    · split <;> simp [UnpackedFloat.isNaN, UnpackedFloat.isInf, less]
    · simp [UnpackedFloat.isNaN, UnpackedFloat.isInf, less]

/-! ### Sizes -/

/-- The size of a finite double keeps its exponent and its fraction. -/
theorem pack_abs_unpack {b : BitVec Format.binary64.numBits} (hb : unpackExponent b ≠ -1#11) :
    UnpackedFloat.pack Format.binary64 (UnpackedFloat.unpack Format.binary64 b).abs =
      packComponents Format.binary64 .positive (unpackExponent b) (unpackMantissa b) := by
  have bias : ((Format.binary64.exponentBias : Nat) : Int) = 1023 := rfl
  have bits : Format.binary64.mantissaBits = 53 := rfl
  have exponent_lt : (unpackExponent b).toNat < 2 ^ 11 := (unpackExponent b).isLt
  have mantissa_lt : (unpackMantissa b).toNat < 2 ^ 52 := (unpackMantissa b).isLt
  have exponent_ne : (unpackExponent b).toNat ≠ 2047 := fun h => hb (BitVec.eq_of_toNat_eq h)
  rw [UnpackedFloat.unpack, if_neg hb]
  split
  case isTrue subnormal =>
    split
    case isTrue zero =>
      rw [subnormal, zero]
      rfl
    case isFalse nonzero =>
      have pos : (unpackMantissa b).toNat ≠ 0 := fun h => nonzero (BitVec.eq_of_toNat_eq h)
      have small := (Nat.log2_lt pos).2 mantissa_lt
      rw [UnpackedFloat.abs, UnpackedFloat.pack]
      dsimp only
      rw [subnormal, if_neg (by decide), if_neg (by omega), BitVec.ofNat_toNat,
        BitVec.setWidth_eq]
  case isFalse normal =>
    -- the leading one of the mantissa is not stored
    have exponent_pos : (unpackExponent b).toNat ≠ 0 := fun h => normal (BitVec.eq_of_toNat_eq h)
    have whole : (1#1 ++ unpackMantissa b).toNat = 2 ^ 52 + (unpackMantissa b).toNat := by
      rw [BitVec.toNat_append, ← Nat.shiftLeft_add_eq_or_of_lt mantissa_lt]
      rfl
    have log : (1#1 ++ unpackMantissa b).toNat.log2 = 52 :=
      (Nat.log2_eq_iff (by omega)).2 (by omega)
    have biased : ((unpackExponent b).toNat - ((Format.binary64.exponentBias : Nat) + (52 : Nat)) +
        (Format.binary64.exponentBias : Nat) + (52 : Nat) : Int).toNat =
          (unpackExponent b).toNat := by
      omega
    rw [UnpackedFloat.abs, UnpackedFloat.pack]
    dsimp only
    rw [biased, if_neg (by simp only [Format.binary64]; omega), if_pos (by omega),
      BitVec.ofNat_toNat, BitVec.setWidth_eq]
    congr 1
    refine BitVec.eq_of_toNat_eq ?_
    rw [BitVec.toNat_ofNat, whole]
    omega

theorem toNat_toBits_abs {x : Float} (h : isUnbounded x = false) :
    x.abs.toBits.toNat = exponentBits x * 2 ^ 52 + fractionBits x := by
  have hb : @unpackExponent Format.binary64 x.toBits.toBitVec ≠ -1#11 := by
    intro ones
    rw [(isUnbounded_iff x).2 (by rw [← toNat_unpackExponent, ones]; rfl)] at h
    cases h
  have abs := congrArg BitVec.toNat (pack_abs_unpack hb)
  rw [toNat_packComponents, toNat_unpackExponent, toNat_unpackMantissa] at abs
  have sign : (Sign.toBitVec .positive).toNat = 0 := rfl
  rw [sign, Nat.zero_mul, Nat.zero_add] at abs
  exact abs

/-- The sign and the size of a finite double determine it. -/
theorem eq_of_abs_eq {x y : Float} (hx : isUnbounded x = false) (hy : isUnbounded y = false)
    (sign : signBit x = signBit y) (size : x.abs = y.abs) : x = y := by
  have abs := congrArg (fun z : Float => z.toBits.toNat) size
  rw [toNat_toBits_abs hx, toNat_toBits_abs hy] at abs
  refine eq_of_toBits (UInt64.toNat_inj.1 ?_)
  rw [toNat_toBits, toNat_toBits, sign]
  omega

end StagedMapping.Number
