import Mathlib
import StagedMapping.Proofs.FloatBits

/-! Integers as doubles. An integer is rounded to 53 binary digits, a tie to the even last one
(`Number.rounded`), and its double is the rounded integer: doubles of integers are compared as
the rounded integers are (`ofInt64_lt`, `ofInt64_le`). Rounding keeps the order of integers but
not their differences (`rounded_mono`), and up to 2^53 it changes nothing (`rounded_of_le`). -/
namespace StagedMapping.Number
open Float.Model Float.Model.UnpackedFloat

/-! ### Rounding -/

/-- A quotient rounded to the nearest number, and a tie to the even one. -/
def roundedQuotient (a u : Nat) : Nat :=
  if u < 2 * (a % u) ∨ (2 * (a % u) = u ∧ a / u % 2 = 1) then a / u + 1 else a / u

/-- What the last of 53 binary digits counts. -/
def spacing (a : Nat) : Nat := 2 ^ (a.log2 - 52)

/-- A size rounded to 53 binary digits. -/
def roundedSize (a : Nat) : Nat := roundedQuotient a (spacing a) * spacing a

/-- An integer rounded to 53 binary digits. -/
def rounded (n : Int) : Int := n.sign * roundedSize n.natAbs

theorem spacing_pos (a : Nat) : 0 < spacing a := Nat.two_pow_pos _

theorem le_roundedQuotient (a u : Nat) : a / u ≤ roundedQuotient a u := by
  unfold roundedQuotient
  split <;> omega

theorem roundedQuotient_le (a u : Nat) : roundedQuotient a u ≤ a / u + 1 := by
  unfold roundedQuotient
  split <;> omega

theorem roundedQuotient_one (a : Nat) : roundedQuotient a 1 = a := by
  simp [roundedQuotient, Nat.mod_one]

theorem roundedQuotient_mono {a b u : Nat} (h : a ≤ b) :
    roundedQuotient a u ≤ roundedQuotient b u := by
  rcases (Nat.div_le_div_right h : a / u ≤ b / u).lt_or_eq with less | same
  · exact (roundedQuotient_le a u).trans ((Nat.succ_le_of_lt less).trans (le_roundedQuotient b u))
  · have ha := Nat.div_add_mod a u
    have hb := Nat.div_add_mod b u
    have rest : a % u ≤ b % u := by
      rw [same] at ha
      omega
    unfold roundedQuotient
    rw [same]
    split
    case isTrue up =>
      rcases up with up | ⟨tie, odd⟩
      · rw [if_pos (.inl (by omega))]
      · rw [if_pos]
        exact (Nat.lt_or_eq_of_le (by omega : u ≤ 2 * (b % u))).imp_right fun h => ⟨h.symm, odd⟩
    case isFalse =>
      split <;> omega

/-! ### Sizes -/

/-- With more than 53 digits, the quotient by the last of them has 53. -/
theorem div_spacing_bounds {a : Nat} (h : 52 ≤ a.log2) :
    2 ^ 52 ≤ a / spacing a ∧ a / spacing a < 2 ^ 53 := by
  have pos : a ≠ 0 := fun zero => by simp [zero] at h
  obtain ⟨low, high⟩ := (Nat.log2_eq_iff pos).1 rfl
  constructor
  · rw [Nat.le_div_iff_mul_le (spacing_pos a), spacing, ← Nat.pow_add]
    exact (Nat.pow_le_pow_right (by decide) (by omega)).trans low
  · rw [Nat.div_lt_iff_lt_mul (spacing_pos a), spacing, ← Nat.pow_add]
    exact high.trans_le (Nat.pow_le_pow_right (by decide) (by omega))

theorem spacing_of_log2_le {a : Nat} (h : a.log2 ≤ 52) : spacing a = 1 := by
  rw [spacing, Nat.sub_eq_zero_of_le h, Nat.pow_zero]

theorem roundedSize_of_log2_le {a : Nat} (h : a.log2 ≤ 52) : roundedSize a = a := by
  rw [roundedSize, spacing_of_log2_le h, roundedQuotient_one, Nat.mul_one]

/-- A rounded size has no more digits than the size, but for the next power of two. -/
theorem roundedSize_le (a : Nat) : roundedSize a ≤ 2 ^ (a.log2 + 1) := by
  rcases Nat.le_total a.log2 52 with small | large
  · rw [roundedSize_of_log2_le small]
    exact Nat.lt_log2_self.le
  · have digits := (div_spacing_bounds large).2
    calc roundedSize a ≤ 2 ^ 53 * spacing a :=
          Nat.mul_le_mul_right _ ((roundedQuotient_le a _).trans digits)
      _ = 2 ^ (a.log2 + 1) := by rw [spacing, ← Nat.pow_add]; congr 1; omega

theorem le_roundedSize {a : Nat} (h : 52 ≤ a.log2) : 2 ^ a.log2 ≤ roundedSize a :=
  calc 2 ^ a.log2 = 2 ^ 52 * spacing a := by rw [spacing, ← Nat.pow_add]; congr 1; omega
    _ ≤ roundedSize a :=
      Nat.mul_le_mul_right _ ((div_spacing_bounds h).1.trans (le_roundedQuotient a _))

theorem roundedSize_mono {a b : Nat} (h : a ≤ b) : roundedSize a ≤ roundedSize b := by
  by_cases same : spacing a = spacing b
  · rw [roundedSize, roundedSize, same]
    exact Nat.mul_le_mul_right _ (roundedQuotient_mono h)
  · -- then the larger size has more digits, and a power of two stands between the two
    have more : a.log2 - 52 ≠ b.log2 - 52 := fun he => same (congrArg (2 ^ ·) he)
    have digits : a.log2 ≤ b.log2 := by
      rw [Nat.log2_eq_log_two, Nat.log2_eq_log_two]
      exact Nat.log_mono_right h
    calc roundedSize a ≤ 2 ^ (a.log2 + 1) := roundedSize_le a
      _ ≤ 2 ^ b.log2 := Nat.pow_le_pow_right (by decide) (by omega)
      _ ≤ roundedSize b := le_roundedSize (by omega)

theorem roundedSize_of_le {a : Nat} (h : a ≤ 2 ^ 53) : roundedSize a = a := by
  rcases Nat.lt_or_eq_of_le h with less | rfl
  · by_cases zero : a = 0
    · rw [zero]
      rfl
    · exact roundedSize_of_log2_le (Nat.lt_succ_iff.1 ((Nat.log2_lt zero).2 less))
  · decide

/-! ### Integers -/

@[simp] theorem rounded_natCast (a : Nat) : rounded a = roundedSize a := by
  rcases Nat.eq_zero_or_pos a with rfl | pos
  · rfl
  · rw [rounded, Int.natAbs_natCast, Int.sign_natCast_of_ne_zero pos.ne', one_mul]

@[simp] theorem rounded_neg (n : Int) : rounded (-n) = -rounded n := by
  rw [rounded, rounded, Int.sign_neg, Int.natAbs_neg, neg_mul]

theorem rounded_mono {m n : Int} (h : m ≤ n) : rounded m ≤ rounded n := by
  obtain ⟨a, rfl | rfl⟩ := m.eq_nat_or_neg <;> obtain ⟨b, rfl | rfl⟩ := n.eq_nat_or_neg <;>
    simp only [rounded_natCast, rounded_neg]
  · exact_mod_cast roundedSize_mono (Int.ofNat_le.1 h)
  · obtain ⟨rfl, rfl⟩ : a = 0 ∧ b = 0 := by omega
    rfl
  · omega
  · have := roundedSize_mono (by omega : b ≤ a)
    omega

theorem rounded_of_le {n : Int} (h : n.natAbs ≤ 2 ^ 53) : rounded n = n := by
  rw [rounded, roundedSize_of_le h, Int.sign_mul_natAbs]

/-! ### Rounding in the model of doubles -/

/-- Digits that are shifted out leave a round bit and a sticky bit. -/
theorem shiftRight_succ (m k : Nat) : (⟨m, false, false⟩ : ExtendedMantissa) >>> (k + 1) =
    ⟨m / 2 ^ (k + 1), m / 2 ^ k % 2 != 0, m % 2 ^ k != 0⟩ := by
  induction k with
  | zero => simp [HShiftRight.hShiftRight, Nat.repeat, ExtendedMantissa.shiftRightOne, Nat.mod_one]
  | succ k ih =>
    show ExtendedMantissa.shiftRightOne ((⟨m, false, false⟩ : ExtendedMantissa) >>> (k + 1)) = _
    rw [ih, ExtendedMantissa.shiftRightOne]
    have sticky : (m % 2 ^ (k + 1) != 0) = (m / 2 ^ k % 2 != 0 || m % 2 ^ k != 0) := by
      rw [Nat.mod_pow_succ]
      rcases Nat.mod_two_eq_zero_or_one (m / 2 ^ k) with bit | bit <;> simp [bit]
    rw [sticky, Nat.div_div_eq_div_mul, ← Nat.pow_succ]

theorem mantissa_shiftRight (m k : Nat) :
    ((⟨m, false, false⟩ : ExtendedMantissa) >>> k).mantissa = m / 2 ^ k := by
  cases k with
  | zero => exact (Nat.div_one m).symm
  | succ k => rw [shiftRight_succ]

/-- So the mantissa that is kept is the rounded quotient. -/
theorem roundedMantissa_shiftRight (m k : Nat) :
    ((⟨m, false, false⟩ : ExtendedMantissa) >>> k).roundedMantissa = roundedQuotient m (2 ^ k) := by
  cases k with
  | zero =>
    rw [Nat.pow_zero, roundedQuotient_one]
    rfl
  | succ k =>
    have pos := Nat.two_pow_pos k
    have less := Nat.mod_lt m pos
    rw [shiftRight_succ, roundedQuotient, Nat.mod_pow_succ, Nat.pow_succ]
    rcases Nat.mod_two_eq_zero_or_one (m / 2 ^ k) with bit | bit
    · have stays : ¬ (2 ^ k * 2 < 2 * (m % 2 ^ k + 2 ^ k * 0) ∨
          2 * (m % 2 ^ k + 2 ^ k * 0) = 2 ^ k * 2 ∧ m / (2 ^ k * 2) % 2 = 1) := by omega
      rw [bit, if_neg stays]
      cases sticky : (m % 2 ^ k != 0) <;> rfl
    · rw [bit]
      cases sticky : (m % 2 ^ k != 0) with
      | true =>
        have rest : m % 2 ^ k ≠ 0 := by simpa using sticky
        rw [if_pos (.inl (by omega))]
        rfl
      | false =>
        have rest : m % 2 ^ k = 0 := by simpa using sticky
        show m / (2 ^ k * 2) + m / (2 ^ k * 2) % 2 = _
        rw [rest]
        split <;> omega

/-- A mantissa of more than 53 digits is shifted until 53 are left. -/
theorem shiftToTargetExponent_eq {m : Nat} {e : Int} (hm : 52 ≤ m.log2) (he : -1074 ≤ e) :
    shiftToTargetExponent Format.binary64 m e .exact =
      ((⟨m, false, false⟩ : ExtendedMantissa) >>> (m.log2 - 52), e + (m.log2 - 52 : Nat)) := by
  have target : Format.binary64.targetExponent (totalExponent m e) = e + (m.log2 - 52 : Nat) := by
    simp only [Format.targetExponent, totalExponent, Format.mantissaBits, Format.minExponent]
    omega
  have shift : (e + (m.log2 - 52 : Nat) - e).toNat = m.log2 - 52 := by omega
  rw [shiftToTargetExponent, target, shiftToExponent, shift]
  rfl

/-- Rounding leaves 53 digits, and one more shift if they are carried over. -/
theorem roundWithAccuracy_eq (s : Sign) {m : Nat} {e : Int} (hm : 52 ≤ m.log2)
    (he : -1074 ≤ e) : ∃ (digits : Nat) (k : Nat) (pos : 0 < digits),
      roundWithAccuracy Format.binary64 s m e .exact = .finite s digits (e + k) pos ∧
      digits.log2 = 52 ∧ k ≤ m.log2 - 51 ∧
      digits * 2 ^ k = roundedQuotient m (spacing m) * spacing m := by
  obtain ⟨low, high⟩ := div_spacing_bounds hm
  have least := low.trans (le_roundedQuotient m (spacing m))
  have most := (roundedQuotient_le m (spacing m)).trans high
  have first := shiftToTargetExponent_eq hm he
  have kept : ((⟨m, false, false⟩ : ExtendedMantissa) >>> (m.log2 - 52)).roundedMantissa =
      roundedQuotient m (spacing m) := roundedMantissa_shiftRight m _
  rw [roundWithAccuracy, first]
  dsimp only
  rw [kept]
  generalize roundedQuotient m (spacing m) = r at least most
  have again := shiftToTargetExponent_eq (m := r) (e := e + (m.log2 - 52 : Nat))
    (Nat.le_log2 (by omega) |>.2 least) (by omega)
  rw [again]
  dsimp only
  simp only [mantissa_shiftRight]
  rcases Nat.lt_or_eq_of_le most with less | rfl
  · have digits : r.log2 = 52 := (Nat.log2_eq_iff (by omega)).2 ⟨least, less⟩
    refine ⟨r, m.log2 - 52, by omega, ?_, digits, by omega, rfl⟩
    simp only [digits, Nat.sub_self, Nat.pow_zero, Nat.div_one]
    rw [dif_neg (by omega), Int.natCast_zero, Int.add_zero]
  · have carried : (2 ^ 53 : Nat).log2 - 52 = 1 := by decide
    refine ⟨2 ^ 52, m.log2 - 52 + 1, by decide, ?_, by decide, by omega, ?_⟩
    · simp only [carried]
      rw [dif_neg (by decide)]
      congr 1
      omega
    · rw [spacing, Nat.pow_succ]
      omega

/-! ### Doubles of integers -/

/-- What the model of doubles has for an integer: zero, or 53 binary digits and the place of the
last of them. -/
inductive Represents : UnpackedFloat → Int → Prop
  | zero : Represents (.zero .positive) 0
  | finite (s : Sign) {digits place size : Nat} (pos : 0 < digits) (hd : digits.log2 = 52)
      (hp : place ≤ 65) (hv : digits * 2 ^ place = size * 2 ^ 52) :
      Represents (.finite s digits ((place : Int) - 52) pos) (s.apply size)

theorem log2_mul_two_pow {a : Nat} (h : a ≠ 0) (j : Nat) : (a * 2 ^ j).log2 = a.log2 + j := by
  obtain ⟨low, high⟩ := (Nat.log2_eq_iff h).1 rfl
  refine (Nat.log2_eq_iff (by positivity)).2 ⟨?_, ?_⟩
  · rw [Nat.pow_add]
    exact Nat.mul_le_mul_right _ low
  · rw [Nat.add_right_comm, Nat.pow_add]
    exact Nat.mul_lt_mul_of_pos_right high (Nat.two_pow_pos j)

theorem round_represents (s : Sign) {a : Nat} (h : a ≠ 0) (ha : a.log2 ≤ 63) :
    Represents (UnpackedFloat.round Format.binary64 s a 0) (s.apply (roundedSize a)) := by
  have target : Format.binary64.targetExponent (totalExponent a 0) = (a.log2 : Int) - 52 := by
    simp only [Format.targetExponent, totalExponent, Format.mantissaBits, Format.minExponent]
    omega
  have shift : ((0 : Int) - (a.log2 - 52)).toNat = 52 - a.log2 := by omega
  have log := log2_mul_two_pow h (52 - a.log2)
  rw [UnpackedFloat.round, target, decreaseExponent]
  dsimp only
  rw [shift, Nat.shiftLeft_eq]
  obtain ⟨digits, k, pos, rounds, hd, hk, hv⟩ := roundWithAccuracy_eq s
    (m := a * 2 ^ (52 - a.log2)) (e := 0 - (52 - a.log2 : Nat)) (by omega) (by omega)
  have place : (0 - (52 - a.log2 : Nat) + k : Int) = (52 - (52 - a.log2) + k : Nat) - 52 := by
    omega
  rw [rounds, place]
  refine .finite s pos hd (by omega) ?_
  rcases Nat.le_total a.log2 52 with small | large
  · rw [spacing_of_log2_le (by omega), roundedQuotient_one, Nat.mul_one] at hv
    rw [roundedSize_of_log2_le small, Nat.add_comm, Nat.pow_add, ← Nat.mul_assoc, hv,
      Nat.mul_assoc, ← Nat.pow_add]
    congr 2
    omega
  · rw [Nat.sub_eq_zero_of_le large, Nat.pow_zero, Nat.mul_one] at hv
    rw [Nat.sub_eq_zero_of_le large, Nat.add_comm, Nat.pow_add, ← Nat.mul_assoc, hv]
    rfl

theorem ofInt_represents {n : Int} (h : n.natAbs ≤ 2 ^ 63) :
    Represents (UnpackedFloat.ofInt Format.binary64 n) (rounded n) := by
  have digits {a : Nat} (ha : a ≠ 0) (le : a ≤ 2 ^ 63) : a.log2 ≤ 63 :=
    Nat.lt_succ_iff.1 ((Nat.log2_lt ha).2 (by omega))
  rw [UnpackedFloat.ofInt, UnpackedFloat.normalize]
  rcases lt_trichotomy n 0 with negative | rfl | positive
  · have size : rounded n = Sign.negative.apply (roundedSize (-n).toNat) := by
      rw [Sign.apply, ← rounded_natCast, ← rounded_neg]
      congr 1
      omega
    rw [Int.compare_eq_lt.2 negative, size]
    exact round_represents _ (by omega) (digits (by omega) (by omega))
  · exact .zero
  · have size : rounded n = Sign.positive.apply (roundedSize n.toNat) := by
      rw [Sign.apply, ← rounded_natCast]
      congr 1
      omega
    rw [Int.compare_eq_gt.2 positive, size]
    exact round_represents _ (by omega) (digits (by omega) (by omega))

theorem unpackSign_packComponents {spec : Format} (s : Sign) (e : BitVec spec.exponentBits)
    (m : BitVec spec.mantissaBitsWithoutImplicit) :
    unpackSign (packComponents spec s e m) = s.toBitVec := by
  refine BitVec.eq_of_getLsbD_eq fun i hi => ?_
  obtain rfl : i = 0 := by omega
  simp [unpackSign, packComponents, BitVec.getLsbD_append, BitVec.getElem_append]

/-- A pattern with an exponent that is neither the least nor the greatest is a finite double
with the leading one of the mantissa not stored. -/
theorem unpack_packComponents (spec : Format) (s : Sign) {e : BitVec spec.exponentBits}
    (m : BitVec spec.mantissaBitsWithoutImplicit) (ones : e ≠ -1#_) (zero : e ≠ 0#_) :
    ∃ pos, UnpackedFloat.unpack spec (packComponents spec s e m) =
      .finite s (1#1 ++ m).toNat
        (e.toNat - (spec.exponentBias + spec.mantissaBitsWithoutImplicit)) pos := by
  have sign : Sign.ofBitVec s.toBitVec = s := by cases s <;> rfl
  simp only [UnpackedFloat.unpack, unpackExponent_packComponents, unpackMantissa_packComponents,
    unpackSign_packComponents, sign, if_neg ones, if_neg zero]
  refine ⟨?_, trivial⟩
  rw [BitVec.toNat_append, ← Nat.shiftLeft_add_eq_or_of_lt m.isLt, BitVec.toNat_one (by decide),
    Nat.one_shiftLeft]
  exact Nat.add_pos_left (Nat.two_pow_pos _) _

/-- The bits of such a double keep what the model has for it. -/
theorem Represents.unpack_pack {u : UnpackedFloat} {v : Int} (h : Represents u v) :
    UnpackedFloat.unpack Format.binary64 (UnpackedFloat.pack Format.binary64 u) = u := by
  cases h with
  | zero => rfl
  | @finite s digits place size pos hd hp hv =>
    obtain ⟨low, high⟩ := (Nat.log2_eq_iff pos.ne').1 hd
    have bits : Format.binary64.mantissaBits = 53 := rfl
    have bias : ((Format.binary64.exponentBias : Nat) : Int) = 1023 := rfl
    have stored : ((Format.binary64.mantissaBitsWithoutImplicit : Nat) : Int) = 52 := rfl
    have biased : ((place : Int) - 52 + (Format.binary64.exponentBias : Nat) +
        (Format.binary64.mantissaBitsWithoutImplicit : Nat)).toNat = place + 1023 := by
      omega
    have bounded : ¬ 2 ^ Format.binary64.exponentBits ≤ place + 1023 + 1 := by
      show ¬ 2 ^ 11 ≤ place + 1023 + 1
      omega
    have exponent : (BitVec.ofNat 11 (place + 1023)).toNat = place + 1023 := by
      rw [BitVec.toNat_ofNat]
      omega
    have ones : BitVec.ofNat 11 (place + 1023) ≠ -1#11 := fun h => by
      have max : place + 1023 = 2047 := exponent ▸ congrArg BitVec.toNat h
      omega
    have zero : BitVec.ofNat 11 (place + 1023) ≠ 0#11 := fun h => by
      have min : place + 1023 = 0 := exponent ▸ congrArg BitVec.toNat h
      omega
    have whole : (1#1 ++ BitVec.ofNat 52 digits).toNat = digits := by
      rw [BitVec.toNat_append, ← Nat.shiftLeft_add_eq_or_of_lt (BitVec.isLt _), BitVec.toNat_ofNat]
      show 2 ^ 52 + digits % 2 ^ 52 = digits
      omega
    have packs : UnpackedFloat.pack Format.binary64 (.finite s digits ((place : Int) - 52) pos) =
        packComponents Format.binary64 s (BitVec.ofNat 11 (place + 1023))
          (BitVec.ofNat 52 digits) := by
      rw [UnpackedFloat.pack]
      dsimp only
      rw [biased, if_neg bounded, if_pos (by omega)]
    obtain ⟨_, unpacks⟩ := unpack_packComponents Format.binary64 s
      (BitVec.ofNat 52 digits) ones zero
    rw [packs, unpacks, UnpackedFloat.finite.injEq]
    exact ⟨rfl, whole, by omega⟩

theorem unpack_ofInt64 (n : Int64) :
    (ofInt64 n).toModel.unpack = UnpackedFloat.ofInt Format.binary64 n.toInt ∧
      Represents (UnpackedFloat.ofInt Format.binary64 n.toInt) (rounded n.toInt) := by
  have low := n.le_toInt
  have high := n.toInt_lt
  have represents := ofInt_represents (n := n.toInt) (by omega)
  exact ⟨represents.unpack_pack, represents⟩

/-! ### Comparison -/

/-- Of two such sizes, the one whose last digit has the higher place is the larger. -/
theorem size_lt_of_place_lt {d₁ p₁ s₁ d₂ p₂ s₂ : Nat} (pos : 0 < d₁) (h₁ : d₁.log2 = 52)
    (v₁ : d₁ * 2 ^ p₁ = s₁ * 2 ^ 52) (pos' : 0 < d₂) (h₂ : d₂.log2 = 52)
    (v₂ : d₂ * 2 ^ p₂ = s₂ * 2 ^ 52) (h : p₁ < p₂) : s₁ < s₂ := by
  have high := ((Nat.log2_eq_iff pos.ne').1 h₁).2
  have low := ((Nat.log2_eq_iff pos'.ne').1 h₂).1
  refine Nat.lt_of_mul_lt_mul_right (a := 2 ^ 52) ?_
  calc s₁ * 2 ^ 52 = d₁ * 2 ^ p₁ := v₁.symm
    _ < 2 ^ 53 * 2 ^ p₁ := Nat.mul_lt_mul_of_pos_right high (Nat.two_pow_pos _)
    _ = 2 ^ 52 * 2 ^ (p₁ + 1) := by rw [← Nat.pow_add, ← Nat.pow_add]; congr 1; omega
    _ ≤ d₂ * 2 ^ p₂ := Nat.mul_le_mul low (Nat.pow_le_pow_right (by decide) h)
    _ = s₂ * 2 ^ 52 := v₂

theorem compare_natCast (a b : Nat) : compare (a : Int) b = compare a b := by
  rw [← cmp_eq_compare, ← cmp_eq_compare]
  exact Int.natCast_strictMono.cmp_map_eq a b

theorem compare_neg_neg (a b : Int) : compare (-a) (-b) = (compare a b).swap := by
  rw [← cmp_eq_compare, ← cmp_eq_compare, cmp_swap]
  exact StrictAnti.cmp_map_eq (f := fun n : Int => -n) (fun _ _ => Int.neg_lt_neg) a b

theorem compare_mul_right {c : Nat} (pos : 0 < c) (a b : Nat) :
    compare (a * c) (b * c) = compare a b := by
  rw [← cmp_eq_compare, ← cmp_eq_compare]
  exact (strictMono_mul_right_of_pos pos).cmp_map_eq a b

/-- So places are compared first, and digits where the places are the same. -/
theorem compare_size {d₁ p₁ s₁ d₂ p₂ s₂ : Nat} (pos : 0 < d₁) (h₁ : d₁.log2 = 52)
    (v₁ : d₁ * 2 ^ p₁ = s₁ * 2 ^ 52) (pos' : 0 < d₂) (h₂ : d₂.log2 = 52)
    (v₂ : d₂ * 2 ^ p₂ = s₂ * 2 ^ 52) :
    (compare ((p₁ : Int) - 52) ((p₂ : Int) - 52)).then (compare d₁ d₂) =
      compare (s₁ : Int) (s₂ : Int) := by
  rcases lt_trichotomy p₁ p₂ with less | rfl | more
  · have sizes := size_lt_of_place_lt pos h₁ v₁ pos' h₂ v₂ less
    have places : (p₁ : Int) - 52 < p₂ - 52 := by omega
    have order : (s₁ : Int) < s₂ := by omega
    rw [compare_lt_iff_lt.2 places, compare_lt_iff_lt.2 order]
    rfl
  · rw [compare_eq_iff_eq.2 rfl, Ordering.then]
    rw [compare_natCast, ← compare_mul_right (Nat.two_pow_pos p₁), v₁, v₂,
      compare_mul_right (Nat.two_pow_pos 52)]
  · have sizes := size_lt_of_place_lt pos' h₂ v₂ pos h₁ v₁ more
    have places : (p₂ : Int) - 52 < p₁ - 52 := by omega
    have order : (s₂ : Int) < s₁ := by omega
    rw [compare_gt_iff_gt.2 places, compare_gt_iff_gt.2 order]
    rfl

theorem size_pos {digits place size : Nat} (pos : 0 < digits)
    (h : digits * 2 ^ place = size * 2 ^ 52) : 0 < size :=
  Nat.pos_of_mul_pos_right (h ▸ Nat.mul_pos pos (Nat.two_pow_pos place))

/-- The order of these doubles is that of the integers they stand for. -/
theorem Represents.compare_eq {u w : UnpackedFloat} {m n : Int} (hu : Represents u m)
    (hw : Represents w n) : u.compare w = some (compare m n) := by
  cases hu with
  | zero =>
    cases hw with
    | zero => rfl
    | finite s pos _ _ hv =>
      have := size_pos pos hv
      cases s with
      | positive =>
        exact congrArg some (compare_lt_iff_lt.2 (by simp only [Sign.apply]; omega)).symm
      | negative =>
        exact congrArg some (compare_gt_iff_gt.2 (by simp only [Sign.apply]; omega)).symm
  | finite s pos hd _ hv =>
    have := size_pos pos hv
    cases hw with
    | zero =>
      cases s with
      | positive =>
        exact congrArg some (compare_gt_iff_gt.2 (by simp only [Sign.apply]; omega)).symm
      | negative =>
        exact congrArg some (compare_lt_iff_lt.2 (by simp only [Sign.apply]; omega)).symm
    | finite t pos' hd' _ hv' =>
      have := size_pos pos' hv'
      have sizes := compare_size pos hd hv pos' hd' hv'
      cases s <;> cases t <;> rw [UnpackedFloat.compare, Sign.apply, Sign.apply]
      case negative.negative => rw [sizes, compare_neg_neg]
      case negative.positive => rw [compare_lt_iff_lt.2 (by omega)]
      case positive.negative => rw [compare_gt_iff_gt.2 (by omega)]
      case positive.positive => rw [sizes]

/-- Doubles of integers are compared as the rounded integers. -/
theorem ofInt64_lt (m n : Int64) :
    ofInt64 m < ofInt64 n ↔ rounded m.toInt < rounded n.toInt := by
  obtain ⟨um, hm⟩ := unpack_ofInt64 m
  obtain ⟨un, hn⟩ := unpack_ofInt64 n
  show Float.lt _ _ = true ↔ _
  rw [Float.lt, decide_eq_true_iff]
  show ((ofInt64 m).toModel.unpack.compare (ofInt64 n).toModel.unpack == some .lt) = true ↔ _
  rw [um, un, hm.compare_eq hn, beq_iff_eq, Option.some_inj]
  exact compare_lt_iff_lt

theorem ofInt64_le (m n : Int64) :
    ofInt64 m ≤ ofInt64 n ↔ rounded m.toInt ≤ rounded n.toInt := by
  obtain ⟨um, hm⟩ := unpack_ofInt64 m
  obtain ⟨un, hn⟩ := unpack_ofInt64 n
  show Float.le _ _ = true ↔ _
  rw [Float.le, decide_eq_true_iff]
  show ((ofInt64 m).toModel.unpack.compare (ofInt64 n).toModel.unpack).any (·.isLE) = true ↔ _
  rw [um, un, hm.compare_eq hn, Option.any_some]
  exact Std.isLE_compare

end StagedMapping.Number
