import StagedMapping.Number.FloatReader
import StagedMapping.Proofs.FloatBits

/-! Doubles without a sign. Rounding keeps the sign of what is rounded, so the product and the
quotient of two doubles without a sign have none, unless they are no numbers, and neither has the
double nearest to a decimal (`isUnsigned_nearest`). A text that starts with a digit is read as
one of these (`isUnsigned_of_readFloat`). -/
namespace StagedMapping.Number
open Float.Model Float.Model.UnpackedFloat

/-- A number whose sign bit is clear. -/
def IsUnsigned (x : Float) : Prop := x.isNaN = false ∧ signBit x = false

instance (x : Float) : Decidable (IsUnsigned x) := inferInstanceAs (Decidable (_ ∧ _))

/-- A number with the positive sign. -/
def IsPositive : UnpackedFloat → Prop
  | .infinity s => s = .positive
  | .zero s => s = .positive
  | .finite s .. => s = .positive
  | .notANumber => False

/-! ### Packing -/

theorem ofBitVec_unpackSign (x : Float) :
    Sign.ofBitVec (@unpackSign Format.binary64 x.toBits.toBitVec) = .positive ↔
      signBit x = false := by
  have lt := x.toBits.toNat_lt
  have bit : (@unpackSign Format.binary64 x.toBits.toBitVec).toNat = x.toBits.toNat / 2 ^ 63 := by
    simp [unpackSign, Nat.shiftRight_eq_div_pow]
    omega
  have zero : @unpackSign Format.binary64 x.toBits.toBitVec = 0#1 ↔
      x.toBits.toNat / 2 ^ 63 = 0 := by
    rw [← bit]
    exact ⟨fun h => by rw [h]; rfl, fun h => BitVec.eq_of_toNat_eq h⟩
  unfold Sign.ofBitVec signBit
  rw [decide_eq_false_iff_not, Nat.pow_eq]
  split
  case isTrue clear =>
    have := zero.1 clear
    simp only [true_iff]
    omega
  case isFalse set =>
    have := mt zero.2 set
    simp only [reduceCtorEq, false_iff]
    omega

theorem isUnsigned_iff (x : Float) : IsUnsigned x ↔ IsPositive x.toModel.unpack := by
  rw [IsUnsigned, ← ofBitVec_unpackSign]
  show UnpackedFloat.isNaN (UnpackedFloat.unpack Format.binary64 x.toBits.toBitVec) = false ∧ _ ↔
    IsPositive (UnpackedFloat.unpack Format.binary64 x.toBits.toBitVec)
  rw [UnpackedFloat.unpack]
  dsimp only
  split
  · split <;> simp [UnpackedFloat.isNaN, IsPositive]
  split
  · split <;> simp [UnpackedFloat.isNaN, IsPositive]
  · simp [UnpackedFloat.isNaN, IsPositive]

/-- The exponent beyond all others is that of the infinite double alone. -/
theorem exists_pack_eq {u : UnpackedFloat} (h : IsPositive u) :
    ∃ (e : BitVec Format.binary64.exponentBits)
      (m : BitVec Format.binary64.mantissaBitsWithoutImplicit),
      UnpackedFloat.pack Format.binary64 u = packComponents Format.binary64 .positive e m ∧
        (e = -1#_ → m = 0#_) := by
  cases u with
  | notANumber => cases h
  | infinity s =>
    cases (h : s = .positive)
    exact ⟨-1#_, 0#_, rfl, fun _ => rfl⟩
  | zero s =>
    cases (h : s = .positive)
    exact ⟨0#_, 0#_, rfl, fun _ => rfl⟩
  | finite s m e pos =>
    cases (h : s = .positive)
    rw [UnpackedFloat.pack]
    dsimp only
    split
    case isTrue => exact ⟨-1#_, 0#_, rfl, fun _ => rfl⟩
    case isFalse small =>
      split
      case isTrue =>
        refine ⟨_, _, rfl, fun ones => ?_⟩
        have := congrArg BitVec.toNat ones
        simp only [Format.binary64, BitVec.toNat_ofNat] at this small
        simp at this
        omega
      case isFalse => exact ⟨0#_, _, rfl, fun ones => absurd ones (by decide)⟩

theorem isNaN_unpack {b : BitVec Format.binary64.numBits}
    (h : unpackExponent b = -1#_ → unpackMantissa b = 0#_) :
    (UnpackedFloat.unpack Format.binary64 b).isNaN = false := by
  rw [UnpackedFloat.unpack]
  dsimp only
  split
  case isTrue ones =>
    rw [if_pos (h ones)]
    rfl
  case isFalse =>
    split
    · split <;> rfl
    · rfl

theorem isUnsigned_pack {u : UnpackedFloat} (h : IsPositive u) :
    IsUnsigned (.ofModel (.pack u)) := by
  obtain ⟨e, m, packed, bounded⟩ := exists_pack_eq h
  constructor
  · show UnpackedFloat.isNaN
      (UnpackedFloat.unpack Format.binary64 (UnpackedFloat.pack Format.binary64 u)) = false
    rw [packed]
    refine isNaN_unpack fun ones => ?_
    rw [unpackExponent_packComponents] at ones
    rw [unpackMantissa_packComponents]
    exact bounded ones
  · have whole : (Float.ofModel (.pack u)).toBits.toNat =
        (Sign.toBitVec .positive).toNat * 2 ^ 63 + e.toNat * 2 ^ 52 + m.toNat := by
      rw [← toNat_packComponents, ← packed]
      rfl
    have he : e.toNat < 2 ^ 11 := e.isLt
    have hm : m.toNat < 2 ^ 52 := m.isLt
    have sign : (Sign.toBitVec .positive).toNat = 0 := rfl
    rw [signBit, decide_eq_false_iff_not, whole, sign, Nat.pow_eq]
    omega

/-! ### Rounding -/

theorem isPositive_roundWithAccuracy (f : Format) (m : Nat) (e : Int) (a : Accuracy) :
    IsPositive (roundWithAccuracy f .positive m e a) := by
  unfold roundWithAccuracy
  dsimp only
  split <;> rfl

theorem isPositive_ofNat (f : Format) (n : Nat) : IsPositive (UnpackedFloat.ofNat f n) := by
  unfold UnpackedFloat.ofNat UnpackedFloat.ofInt UnpackedFloat.normalize UnpackedFloat.round
  split
  · rename_i below
    have := Int.compare_eq_lt.1 below
    omega
  · rfl
  · exact isPositive_roundWithAccuracy ..

theorem isPositive_mul (f : Format) {u : UnpackedFloat} (h : IsPositive u) {m : Nat} {e : Int}
    (pos : 0 < m) : IsPositive (UnpackedFloat.mul f u (.finite .positive m e pos)) := by
  cases u with
  | notANumber => cases h
  | infinity s =>
    cases (h : s = .positive)
    rfl
  | zero s =>
    cases (h : s = .positive)
    rfl
  | finite s m e pos =>
    cases (h : s = .positive)
    exact isPositive_roundWithAccuracy ..

theorem isPositive_div (f : Format) {u : UnpackedFloat} (h : IsPositive u) {m : Nat} {e : Int}
    (pos : 0 < m) : IsPositive (UnpackedFloat.div f u (.finite .positive m e pos)) := by
  cases u with
  | notANumber => cases h
  | infinity s =>
    cases (h : s = .positive)
    rfl
  | zero s =>
    cases (h : s = .positive)
    rfl
  | finite s m e pos =>
    cases (h : s = .positive)
    exact isPositive_roundWithAccuracy ..

theorem isPositive_ofScientific (f : Format) (m : Nat) (e : Int) :
    IsPositive (UnpackedFloat.ofScientific f m e) := by
  unfold UnpackedFloat.ofScientific
  split
  · rfl
  split
  · rfl
  split
  · rfl
  split
  · exact isPositive_mul f (u := .finite ..) rfl _
  · exact isPositive_div f (u := .finite ..) rfl _

/-- Finite, with the positive sign. -/
def isRegular : UnpackedFloat → Bool
  | .finite .positive .. => true
  | _ => false

theorem isPositive_mul_of_isRegular (f : Format) {u v : UnpackedFloat} (hu : IsPositive u)
    (hv : isRegular v = true) : IsPositive (UnpackedFloat.mul f u v) := by
  unfold isRegular at hv
  split at hv
  · exact isPositive_mul f hu _
  · cases hv

theorem isPositive_div_of_isRegular (f : Format) {u v : UnpackedFloat} (hu : IsPositive u)
    (hv : isRegular v = true) : IsPositive (UnpackedFloat.div f u v) := by
  unfold isRegular at hv
  split at hv
  · exact isPositive_div f hu _
  · cases hv

theorem isRegular_powerOfTen : ∀ e : Fin 23,
    isRegular (Float.exactlyRepresentablePowersOfTen[e]).toModel.unpack = true := by
  decide +kernel

theorem isUnsigned_ofScientific (m : Nat) (negative : Bool) (e : Nat) :
    IsUnsigned (Float.ofScientific m negative e) := by
  unfold Float.ofScientific
  split
  case isTrue small =>
    have regular := isRegular_powerOfTen ⟨e, by omega⟩
    have whole : IsPositive m.toUInt64.toFloat.toModel.unpack :=
      (isUnsigned_iff _).1 (isUnsigned_pack (isPositive_ofNat _ _))
    split
    · exact isUnsigned_pack (isPositive_div_of_isRegular _ whole regular)
    · exact isUnsigned_pack (isPositive_mul_of_isRegular _ whole regular)
  case isFalse =>
    exact isUnsigned_pack (isPositive_ofScientific _ _ _)

/-! ### Reading -/

theorem isUnsigned_nearest (n : Nat) (e : Int) : IsUnsigned (nearest n e) := by
  unfold nearest
  dsimp only
  split
  · decide
  split
  · decide
  split
  · decide
  split
  · exact isUnsigned_ofScientific ..
  · exact isUnsigned_ofScientific ..

theorem isUnsigned_of_readSize {cs : List Char} {x : Float} (h : readSize cs = some x) :
    IsUnsigned x := by
  unfold readSize at h
  extract_lets whole at h
  split at h
  split at h
  · cases h
  · obtain ⟨e, -, rfl⟩ := Option.map_eq_some_iff.1 h
    exact isUnsigned_nearest _ _

theorem toLower_of_isDigit {c : Char} (hc : c.isDigit = true) : c.toLower = c := by
  have small : ¬ (65 ≤ c.val ∧ c.val ≤ 90) := by
    simp only [Char.isDigit, Bool.and_eq_true, decide_eq_true_eq, ge_iff_le,
      UInt32.le_iff_toNat_le] at hc ⊢
    have := hc.2
    simp at this ⊢
    omega
  rw [Char.toLower]
  exact dif_neg small

/-- What is read from a text that starts with a digit has no sign. -/
theorem isUnsigned_of_readFloat {c : Char} {cs : List Char} (hc : c.isDigit = true) {x : Float}
    (h : readFloat (c :: cs) = some x) : IsUnsigned x := by
  have sign : readSign (c :: cs) = (false, c :: cs) := by
    unfold readSign
    split
    · rename_i e
      cases e
      cases hc
    · rename_i e
      cases e
      cases hc
    · rfl
  unfold readFloat at h
  rw [sign] at h
  obtain ⟨size, hsize, rfl⟩ := Option.map_eq_some_iff.1 h
  clear h
  show IsUnsigned size
  split at hsize
  · cases hsize
    decide
  · cases hsize
    decide
  · rename_i nan
    have first := congrArg String.toList nan
    rw [String.toList_ofList, List.map_cons, toLower_of_isDigit hc] at first
    cases (List.cons.inj first).1
    cases hc
  · exact isUnsigned_of_readSize hsize

end StagedMapping.Number
