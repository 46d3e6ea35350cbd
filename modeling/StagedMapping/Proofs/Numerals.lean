import StagedMapping.Number.FloatText
import StagedMapping.Proofs.FloatSign
import StagedMapping.Proofs.LiteralText
import StagedMapping.Proofs.ShortestDigits

/-! Written numbers. A `Numeral` is what the text of a number consists of, and shows where it
ends if nothing follows that could go on with it (`Numeral.cancel`). The text of a double
without a sign is a numeral of its fewest digits (`render_eq`), so the text is that of no other
double (`numeral_inj`). -/
namespace StagedMapping

/-! ### Longest matches -/

theorem span_cancel {α : Type} {p : α → Bool} {xs ys cs ds : List α} (hx : ∀ c ∈ xs, p c = true)
    (hy : ∀ c ∈ ys, p c = true) (hc : ∀ c ∈ cs.head?, p c = false)
    (hd : ∀ c ∈ ds.head?, p c = false) (h : xs ++ cs = ys ++ ds) : xs = ys ∧ cs = ds := by
  induction xs generalizing ys with
  | nil =>
    cases ys with
    | nil => exact ⟨rfl, h⟩
    | cons y ys =>
      rw [List.nil_append, List.cons_append] at h
      have := hc y (by rw [h]; rfl)
      rw [hy y List.mem_cons_self] at this
      cases this
  | cons x xs ih =>
    cases ys with
    | nil =>
      rw [List.nil_append, List.cons_append] at h
      have := hd x (by rw [← h]; rfl)
      rw [hx x List.mem_cons_self] at this
      cases this
    | cons y ys =>
      obtain ⟨rfl, tail⟩ := List.cons.inj h
      obtain ⟨rfl, rest⟩ := ih (fun c hc => hx c (List.mem_cons_of_mem _ hc))
        (fun c hc => hy c (List.mem_cons_of_mem _ hc)) tail
      exact ⟨rfl, rest⟩

theorem toDigits_inj {b n m : ℕ} (hb : 1 < b) (hb' : b ≤ 16)
    (h : Nat.toDigits b n = Nat.toDigits b m) : n = m := by
  have digit : ∀ i < 16, ∀ j < 16, Nat.digitChar i = Nat.digitChar j → i = j := by decide
  induction n using Nat.strong_induction_on generalizing m with
  | _ n ih =>
    rw [Nat.toDigits_eq_if hb, Nat.toDigits_eq_if hb (n := m)] at h
    have hn : n % b < b := Nat.mod_lt _ (by omega)
    have hm : m % b < b := Nat.mod_lt _ (by omega)
    split at h <;> split at h
    · exact digit n (by omega) m (by omega) (List.cons.inj h).1
    · have lengths := congrArg List.length h
      have : 0 < (Nat.toDigits b (m / b)).length := Nat.length_toDigits_pos
      rw [List.length_append, List.length_singleton, List.length_singleton] at lengths
      omega
    · have lengths := congrArg List.length h
      have : 0 < (Nat.toDigits b (n / b)).length := Nat.length_toDigits_pos
      rw [List.length_append, List.length_singleton, List.length_singleton] at lengths
      omega
    · obtain ⟨init, last⟩ := List.append_inj' h rfl
      have quotient := ih (n / b) (Nat.div_lt_self (by omega) hb) init
      have remainder := digit _ (by omega) _ (by omega) (List.cons.inj last).1
      rw [← Nat.div_add_mod n b, ← Nat.div_add_mod m b, quotient, remainder]

namespace Number
open Lexer (Stops)
open Float.Model Float.Model.UnpackedFloat

/-- A number in decimal digits, with digits after a point and a power of ten if there are
some. -/
structure Numeral where
  whole : List Char
  fraction : List Char
  power : Option ℤ

namespace Numeral

def fractionChars (n : Numeral) : List Char :=
  if n.fraction.isEmpty then [] else '.' :: n.fraction

def powerChars (n : Numeral) : List Char :=
  match n.power with
  | none => []
  | some e => 'e' :: (toString e).toList

def chars (n : Numeral) : List Char := n.whole ++ (n.fractionChars ++ n.powerChars)

/-- What is written as digits is digits. -/
structure Proper (n : Numeral) : Prop where
  ne_nil : n.whole ≠ []
  whole : ∀ c ∈ n.whole, c.isDigit = true
  fraction : ∀ c ∈ n.fraction, c.isDigit = true

/-- The number that is written. -/
def value (n : Numeral) : ℚ :=
  Nat.ofDigitChars 10 (n.whole ++ n.fraction) 0 * 10 ^ (n.power.getD 0 - n.fraction.length)

end Numeral

/-! ### Where a numeral ends -/

theorem isDigit_of_stops {cs : List Char} (h : Stops cs) : ∀ c ∈ cs.head?, c.isDigit = false := by
  intro c hc
  have part := h.digitPart c hc
  rw [Lexer.isDigitPart, Bool.or_eq_false_iff] at part
  exact part.1

theorem toList_toString_nat (n : ℕ) : (toString (n : ℤ)).toList = Nat.toDigits 10 n := by
  rw [Int.toString_eq_repr, Int.repr_eq_if, if_pos (Int.natCast_nonneg n), Nat.toList_repr,
    Int.toNat_natCast]

theorem toList_toString_negSucc (n : ℕ) :
    (toString (Int.negSucc n)).toList = '-' :: Nat.toDigits 10 (n + 1) := by
  rw [Int.toString_eq_repr, Int.repr_eq_if, if_neg (by omega), String.toList_append,
    Nat.toList_repr]
  rfl

theorem natural_cancel {n m : ℕ} {cs ds : List Char} (hc : Stops cs) (hd : Stops ds)
    (h : Nat.toDigits 10 n ++ cs = Nat.toDigits 10 m ++ ds) : n = m ∧ cs = ds := by
  have digits {n : ℕ} : ∀ c ∈ Nat.toDigits 10 n, c.isDigit = true :=
    fun c hc => Nat.isDigit_of_mem_toDigits (by decide) (by decide) hc
  obtain ⟨same, rest⟩ := span_cancel digits digits (isDigit_of_stops hc) (isDigit_of_stops hd) h
  exact ⟨toDigits_inj (by decide) (by decide) same, rest⟩

theorem minus_ne_natural {n : ℕ} {cs ds : List Char} : '-' :: cs ≠ Nat.toDigits 10 n ++ ds := by
  intro h
  cases hn : Nat.toDigits 10 n with
  | nil => exact Nat.toDigits_ne_nil hn
  | cons c rest =>
    rw [hn, List.cons_append] at h
    have digit : c.isDigit = true :=
      Nat.isDigit_of_mem_toDigits (b := 10) (n := n) (by decide) (by decide)
        (by rw [hn]; exact List.mem_cons_self)
    rw [← (List.cons.inj h).1] at digit
    cases digit

theorem toString_cancel {e f : ℤ} {cs ds : List Char} (hc : Stops cs) (hd : Stops ds)
    (h : (toString e).toList ++ cs = (toString f).toList ++ ds) : e = f ∧ cs = ds := by
  cases e with
  | ofNat n =>
    rw [Int.ofNat_eq_natCast, toList_toString_nat] at h
    cases f with
    | ofNat m =>
      rw [Int.ofNat_eq_natCast, toList_toString_nat] at h
      obtain ⟨rfl, rest⟩ := natural_cancel hc hd h
      exact ⟨rfl, rest⟩
    | negSucc m =>
      rw [toList_toString_negSucc] at h
      exact absurd h.symm minus_ne_natural
  | negSucc n =>
    rw [toList_toString_negSucc] at h
    cases f with
    | ofNat m =>
      rw [Int.ofNat_eq_natCast, toList_toString_nat] at h
      exact absurd h minus_ne_natural
    | negSucc m =>
      rw [toList_toString_negSucc] at h
      obtain ⟨same, rest⟩ := natural_cancel hc hd (List.cons.inj h).2
      exact ⟨by rw [Nat.succ.inj same], rest⟩

namespace Numeral
variable {n m : Numeral} {cs ds : List Char}

theorem power_cancel (hc : Stops cs) (hd : Stops ds)
    (h : n.powerChars ++ cs = m.powerChars ++ ds) : n.power = m.power ∧ cs = ds := by
  unfold powerChars at h
  split at h <;> split at h
  · rename_i hn _ hm
    exact ⟨hn.trans hm.symm, h⟩
  · rw [List.nil_append, List.cons_append] at h
    cases hc.identPart 'e' (by rw [h]; rfl)
  · rw [List.nil_append, List.cons_append] at h
    cases hd.identPart 'e' (by rw [← h]; rfl)
  · rename_i hn _ _ hm
    obtain ⟨rfl, rest⟩ := toString_cancel hc hd (List.cons.inj h).2
    exact ⟨hn.trans hm.symm, rest⟩

/-- After the digits before the point comes no digit. -/
theorem isDigit_head_power (hc : Stops cs) :
    ∀ c ∈ (n.powerChars ++ cs).head?, c.isDigit = false := by
  unfold powerChars
  split
  · exact isDigit_of_stops hc
  · rintro _ ⟨⟩
    rfl

theorem isDigit_head_fraction (hc : Stops cs) :
    ∀ c ∈ (n.fractionChars ++ (n.powerChars ++ cs)).head?, c.isDigit = false := by
  unfold fractionChars
  split
  · exact isDigit_head_power hc
  · rintro _ ⟨⟩
    rfl

/-- A point with a digit after it goes on with a number. -/
theorem power_ne_point (hc : Stops cs) {d : Char} (hdigit : d.isDigit = true) {xs : List Char} :
    n.powerChars ++ cs ≠ '.' :: d :: xs := by
  intro h
  unfold powerChars at h
  split at h
  · rw [List.nil_append] at h
    rw [h] at hc
    have := hc.2.2.2 rfl d rfl
    rw [hdigit] at this
    cases this
  · cases h

theorem fraction_cancel (hn : n.Proper) (hm : m.Proper) (hc : Stops cs) (hd : Stops ds)
    (h : n.fractionChars ++ (n.powerChars ++ cs) = m.fractionChars ++ (m.powerChars ++ ds)) :
    n.fraction = m.fraction ∧ n.powerChars ++ cs = m.powerChars ++ ds := by
  unfold fractionChars at h
  cases hnf : n.fraction with
  | nil =>
    rw [hnf] at h
    cases hmf : m.fraction with
    | nil =>
      rw [hmf] at h
      exact ⟨rfl, h⟩
    | cons d rest =>
      rw [hmf] at h
      exact absurd h (power_ne_point hc (hm.fraction d (by rw [hmf]; exact List.mem_cons_self)))
  | cons c rest =>
    rw [hnf] at h
    cases hmf : m.fraction with
    | nil =>
      rw [hmf] at h
      exact absurd h.symm
        (power_ne_point hd (hn.fraction c (by rw [hnf]; exact List.mem_cons_self)))
    | cons d more =>
      rw [hmf] at h
      have digits := hn.fraction
      have digits' := hm.fraction
      rw [hnf] at digits
      rw [hmf] at digits'
      exact span_cancel digits digits' (isDigit_head_power hc) (isDigit_head_power hd)
        (List.cons.inj h).2

/-- A numeral shows where it ends, before anything that cannot go on with it. -/
theorem cancel (hn : n.Proper) (hm : m.Proper) (hc : Stops cs) (hd : Stops ds)
    (h : n.chars ++ cs = m.chars ++ ds) : n = m ∧ cs = ds := by
  unfold chars at h
  rw [List.append_assoc, List.append_assoc, List.append_assoc, List.append_assoc] at h
  obtain ⟨whole, tail⟩ := span_cancel hn.whole hm.whole (isDigit_head_fraction hc)
    (isDigit_head_fraction hd) h
  obtain ⟨fraction, tail⟩ := fraction_cancel hn hm hc hd tail
  obtain ⟨power, rest⟩ := power_cancel hc hd tail
  refine ⟨?_, rest⟩
  cases n
  cases m
  cases whole
  cases fraction
  cases power
  rfl

end Numeral

/-! ### Digits -/

theorem isDigit_of_mem_significant {d : Decimal} {c : Char} (h : c ∈ significant d) :
    c.isDigit = true := by
  have sub := ((Nat.toDigits 10 d.digits).reverse.dropWhile_sublist (· == '0')).subset
  exact Nat.isDigit_of_mem_toDigits (by decide) (by decide)
    (List.mem_reverse.1 (sub (List.mem_reverse.1 h)))

/-- Of the digits only zeros are left out, at the end. -/
theorem exists_significant (d : Decimal) :
    ∃ k, Nat.toDigits 10 d.digits = significant d ++ List.replicate k '0' := by
  refine ⟨((Nat.toDigits 10 d.digits).reverse.takeWhile (· == '0')).length, ?_⟩
  have zeros : (Nat.toDigits 10 d.digits).reverse.takeWhile (· == '0') =
      List.replicate ((Nat.toDigits 10 d.digits).reverse.takeWhile (· == '0')).length '0' :=
    List.eq_replicate_of_mem fun c hc => by simpa using List.mem_takeWhile_imp hc
  have split := List.takeWhile_append_dropWhile
    (p := (· == '0')) (l := (Nat.toDigits 10 d.digits).reverse)
  rw [← List.reverse_inj, List.reverse_append, List.reverse_replicate, ← zeros, significant,
    List.reverse_reverse, split]

theorem ofDigitChars_zeros (xs : List Char) (k : ℕ) :
    Nat.ofDigitChars 10 (xs ++ List.replicate k '0') 0 = 10 ^ k * Nat.ofDigitChars 10 xs 0 := by
  rw [Nat.ofDigitChars_append, Nat.ofDigitChars_replicate_zero]

/-- The digits with the point where it is write the number. -/
theorem significant_value (d : Decimal) :
    (Nat.ofDigitChars 10 (significant d) 0 : ℚ) * 10 ^ (pointAt d - (significant d).length) =
      d.value := by
  obtain ⟨k, digits⟩ := exists_significant d
  have count : digitCount d.digits = (significant d).length + k := by
    rw [digitCount, digits, List.length_append, List.length_replicate]
  have whole : d.digits = 10 ^ k * Nat.ofDigitChars 10 (significant d) 0 := by
    rw [← ofDigitChars_zeros, ← digits, Nat.ofDigitChars_ten_toDigits]
  have exponent : pointAt d - (significant d).length = k + d.exponent := by
    rw [pointAt, count]
    push_cast
    ring
  rw [exponent, Decimal.value, whole, zpow_add₀ (by norm_num), zpow_natCast]
  push_cast
  ring

/-- A number that is not zero has a digit left. -/
theorem significant_ne_nil {d : Decimal} (h : d.value ≠ 0) : significant d ≠ [] := by
  intro nil
  rw [← significant_value, nil, Nat.ofDigitChars_nil] at h
  simp at h

/-! ### The numeral of a double -/

/-- The digits with a point among them or before them, or zeros after them. -/
def positionalNumeral (digits : List Char) (point : ℤ) : Numeral :=
  let parts := positional digits point
  ⟨parts.1, if parts.2.isEmpty then ['0'] else parts.2, none⟩

/-- One digit before the point. -/
def scientificNumeral (digits : List Char) (point : ℤ) : Numeral :=
  ⟨digits.take 1, digits.drop 1, some (point - 1)⟩

/-- The numeral that shows the size of a finite double. -/
def numeral (x : Float) : Numeral :=
  if x == 0.0 then ⟨['0'], ['0'], none⟩
  else
    let d := shortest x
    if -4 < pointAt d ∧ pointAt d ≤ 16 then positionalNumeral (significant d) (pointAt d)
    else scientificNumeral (significant d) (pointAt d)

theorem render_eq {x : Float} (h : isUnbounded x = false) (sign : signBit x = false) :
    (render x).toList = (numeral x).chars := by
  rw [isUnbounded, Bool.or_eq_false_iff] at h
  unfold render numeral
  rw [h.1, h.2]
  simp only [Bool.false_eq_true, if_false, signed, sign]
  split
  · rw [String.toList_ofList]
    rfl
  split
  · simp [Numeral.chars, Numeral.fractionChars, Numeral.powerChars, positionalNumeral]
    split <;> simp_all
  · simp [Numeral.chars, Numeral.fractionChars, Numeral.powerChars, scientificNumeral, scientific]

section
variable {digits : List Char} (point : ℤ)

theorem positionalNumeral_proper (hne : digits ≠ []) (hd : ∀ c ∈ digits, c.isDigit = true) :
    (positionalNumeral digits point).Proper := by
  have zeros (n : ℕ) : ∀ c ∈ List.replicate n '0', c.isDigit = true :=
    fun c hc => by rw [(List.mem_replicate.1 hc).2]; rfl
  have padded {fraction : List Char} (h : ∀ c ∈ fraction, c.isDigit = true) :
      ∀ c ∈ (if fraction.isEmpty then ['0'] else fraction), c.isDigit = true := by
    split
    · exact List.forall_mem_singleton.2 rfl
    · exact h
  unfold positionalNumeral positional
  split
  case isTrue =>
    exact ⟨List.cons_ne_nil _ _, List.forall_mem_singleton.2 rfl,
      padded (List.forall_mem_append.2 ⟨zeros _, hd⟩)⟩
  case isFalse pos =>
    refine ⟨?_, List.forall_mem_append.2 ⟨fun c hc => hd c (List.mem_of_mem_take hc), zeros _⟩,
      padded fun c hc => hd c (List.mem_of_mem_drop hc)⟩
    have := List.length_pos_iff.2 hne
    refine List.append_ne_nil_of_left_ne_nil (List.length_pos_iff.1 ?_) _
    rw [List.length_take]
    omega

theorem positionalNumeral_value (hne : digits ≠ []) :
    (positionalNumeral digits point).value =
      Nat.ofDigitChars 10 digits 0 * 10 ^ (point - digits.length) := by
  have length := List.length_pos_iff.2 hne
  unfold positionalNumeral positional
  split
  case isTrue small =>
    -- zeros stand between the point and the digits
    have some : (List.replicate (-point).toNat '0' ++ digits).isEmpty = false := by
      cases digits <;> simp_all
    simp only [some, Bool.false_eq_true, if_false, Numeral.value, Option.getD_none]
    rw [Nat.ofDigitChars_append, Nat.ofDigitChars_append, Nat.ofDigitChars_replicate_zero]
    congr 2
    rw [List.length_append, List.length_replicate]
    push_cast
    omega
  case isFalse pos =>
    by_cases long : digits.length ≤ point.toNat
    · -- zeros stand between the digits and the point
      rw [List.take_of_length_le long, List.drop_eq_nil_of_le long]
      simp only [Numeral.value, List.isEmpty_nil, if_true, Option.getD_none]
      have exponent : point - digits.length = (point.toNat - digits.length : ℕ) := by omega
      rw [exponent, Nat.ofDigitChars_append, ofDigitChars_zeros, zpow_natCast]
      simp only [Nat.ofDigitChars_cons, Nat.ofDigitChars_nil, List.length_singleton]
      push_cast
      norm_num
      ring
    · have some : (digits.drop point.toNat).isEmpty = false := by
        rw [List.isEmpty_eq_false_iff, ← List.length_pos_iff, List.length_drop]
        omega
      have none : point.toNat - digits.length = 0 := by omega
      simp only [some, none, Bool.false_eq_true, if_false, Numeral.value, Option.getD_none,
        List.replicate_zero, List.append_nil, List.take_append_drop]
      congr 2
      rw [List.length_drop]
      omega

theorem scientificNumeral_proper (hne : digits ≠ []) (hd : ∀ c ∈ digits, c.isDigit = true) :
    (scientificNumeral digits point).Proper where
  ne_nil := by
    cases digits with
    | nil => exact absurd rfl hne
    | cons c rest => exact List.cons_ne_nil _ _
  whole c hc := hd c (List.mem_of_mem_take hc)
  fraction c hc := hd c (List.mem_of_mem_drop hc)

theorem scientificNumeral_value (hne : digits ≠ []) :
    (scientificNumeral digits point).value =
      Nat.ofDigitChars 10 digits 0 * 10 ^ (point - digits.length) := by
  have length := List.length_pos_iff.2 hne
  simp only [scientificNumeral, Numeral.value, Option.getD_some, List.take_append_drop]
  congr 2
  rw [List.length_drop]
  omega

end

/-! ### Doubles without a sign -/

theorem mantissa_eq_zero_iff (x : Float) :
    (parts x).mantissa = 0 ↔ exponentBits x = 0 ∧ fractionBits x = 0 := by
  unfold parts
  split
  case isTrue zero => exact ⟨fun h => ⟨zero, h⟩, fun h => h.2⟩
  case isFalse nonzero =>
    exact ⟨fun h => absurd h (Nat.succ_ne_zero _), fun h => absurd h.1 nonzero⟩

theorem beq_zero_of_finite {s : Sign} {m : ℕ} {e : ℤ} (pos : 0 < m) :
    UnpackedFloat.beq (.finite s m e pos) (.zero .positive) = false := by
  cases s <;> rfl

/-- A finite double is zero if its mantissa is. -/
theorem beq_zero_iff {x : Float} (h : isUnbounded x = false) :
    (x == 0.0) = true ↔ (parts x).mantissa = 0 := by
  have zero : (0.0 : Float).toModel.unpack = .zero .positive := by rfl
  have bounded : @unpackExponent Format.binary64 x.toBits.toBitVec ≠ -1#_ := by
    intro ones
    rw [(isUnbounded_iff x).2 (by rw [← toNat_unpackExponent, ones]; rfl)] at h
    cases h
  rw [mantissa_eq_zero_iff, ← toNat_unpackExponent, ← toNat_unpackMantissa]
  show UnpackedFloat.beq (UnpackedFloat.unpack Format.binary64 x.toBits.toBitVec)
    (0.0 : Float).toModel.unpack = true ↔ _
  rw [zero, UnpackedFloat.unpack, if_neg bounded]
  split
  case isTrue least =>
    rw [least]
    split
    case isTrue none =>
      rw [none]
      exact ⟨fun _ => ⟨rfl, rfl⟩, fun _ => rfl⟩
    case isFalse some =>
      rw [beq_zero_of_finite]
      exact ⟨nofun, fun h => absurd (BitVec.eq_of_toNat_eq h.2) some⟩
  case isFalse more =>
    rw [beq_zero_of_finite]
    exact ⟨nofun, fun h => absurd (BitVec.eq_of_toNat_eq h.1) more⟩

theorem shortest_value_ne_zero {x : Float} (h : (parts x).mantissa ≠ 0) :
    (shortest x).value ≠ 0 := by
  intro zero
  have canonical := parts_canonical h
  have holds := Interval.has_iff.1 (Interval.has_search canonical)
  change (Interval.ofParts (parts x)).Holds (shortest x).value at holds
  obtain ⟨low, -⟩ := holds.quarters canonical
  rw [zero] at low
  have hbelow := Interval.below_le (parts x)
  have pos := canonical.pos
  have start : (0 : ℚ) < 4 * (parts x).mantissa - Interval.below (parts x) := by
    rw [← Interval.cast_low canonical]
    exact_mod_cast (by omega)
  exact absurd low (not_le.2 (by positivity))

/-- The numeral is proper, and it writes the fewest digits. -/
theorem numeral_spec {x : Float} (h : isUnbounded x = false) : (numeral x).Proper ∧
    (numeral x).value = if (parts x).mantissa = 0 then 0 else (shortest x).value := by
  unfold numeral
  split
  case isTrue zero =>
    rw [if_pos ((beq_zero_iff h).1 zero)]
    refine ⟨⟨List.cons_ne_nil _ _, ?_, ?_⟩, ?_⟩
    · exact List.forall_mem_singleton.2 rfl
    · exact List.forall_mem_singleton.2 rfl
    · simp [Numeral.value, Nat.ofDigitChars_cons]
  case isFalse nonzero =>
    have mantissa := mt (beq_zero_iff h).2 nonzero
    rw [if_neg mantissa]
    have hne := significant_ne_nil (shortest_value_ne_zero mantissa)
    have hd := fun c => isDigit_of_mem_significant (d := shortest x) (c := c)
    dsimp only
    split
    · exact ⟨positionalNumeral_proper _ hne hd,
        (positionalNumeral_value _ hne).trans (significant_value _)⟩
    · exact ⟨scientificNumeral_proper _ hne hd,
        (scientificNumeral_value _ hne).trans (significant_value _)⟩

/-- A double is not written as a whole number. -/
theorem numeral_not_whole (x : Float) : (numeral x).fraction ≠ [] ∨ (numeral x).power ≠ none := by
  unfold numeral
  split
  · exact .inl (List.cons_ne_nil _ _)
  dsimp only
  split
  · left
    unfold positionalNumeral
    dsimp only
    split
    · exact List.cons_ne_nil _ _
    · rename_i some
      exact fun none => some (List.isEmpty_iff.2 none)
  · exact .inr nofun

/-- The numeral of a finite double is that of no other of the same sign. -/
theorem numeral_inj {x y : Float} (hx : isUnbounded x = false) (hy : isUnbounded y = false)
    (sign : signBit x = signBit y) (h : numeral x = numeral y) : x = y := by
  have value := congrArg Numeral.value h
  rw [(numeral_spec hx).2, (numeral_spec hy).2] at value
  split at value <;> split at value
  · rename_i zx zy
    refine eq_of_parts_eq sign (zx.trans zy.symm) ?_
    rw [exponent_of_mantissa_eq_zero zx, exponent_of_mantissa_eq_zero zy]
  · rename_i ny
    exact absurd value.symm (shortest_value_ne_zero ny)
  · rename_i nx _
    exact absurd value (shortest_value_ne_zero nx)
  · rename_i nx ny
    exact eq_of_shortest_eq sign nx ny value

end Number
end StagedMapping
