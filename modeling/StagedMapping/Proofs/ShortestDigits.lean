import StagedMapping.Number.Shortest
import StagedMapping.Proofs.FloatBits

/-! The fewest digits of a double. The search for them ends inside the interval of the reals
that round to the double, since seventeen digits make a grid that is finer than the interval is
wide (`has_search`). The intervals of two doubles have no number in common (`Holds.unique`), so
the digits of a double are those of no other double of its sign (`eq_of_shortest_eq`). -/
namespace StagedMapping.Number

/-- The number that the digits write. -/
def Decimal.value (d : Decimal) : ℚ := d.digits * 10 ^ d.exponent

/-- A power of ten as a quotient of powers with natural exponents. -/
theorem zpow_mul_pow_toNat {b : ℚ} (hb : b ≠ 0) (e : ℤ) :
    b ^ e * b ^ (-e).toNat = b ^ e.toNat := by
  rw [← zpow_natCast, ← zpow_natCast, ← zpow_add₀ hb]
  congr 1
  omega

namespace Interval
variable {i : Interval} {v : ℚ} {d : Decimal} {e : ℤ}

/-- The number lies in the interval. -/
def Holds (i : Interval) (v : ℚ) : Prop :=
  if i.closed then i.low ≤ v * i.den ∧ v * i.den ≤ i.high
  else i.low < v * i.den ∧ v * i.den < i.high

theorem Holds.bounds (h : i.Holds v) : i.low ≤ v * i.den ∧ v * i.den ≤ i.high := by
  unfold Holds at h
  split at h
  · exact h
  · exact ⟨h.1.le, h.2.le⟩

/-- An end of an interval belongs to it only if it is closed. -/
theorem Holds.closed (h : i.Holds v) (hend : v * i.den = i.low ∨ v * i.den = i.high) :
    i.closed = true := by
  unfold Holds at h
  split at h
  · assumption
  · rcases hend with hend | hend
    · exact absurd hend h.1.ne'
    · exact absurd hend h.2.ne

theorem holds_of_lt (hlow : i.low < v * i.den) (hhigh : v * i.den < i.high) : i.Holds v := by
  unfold Holds
  split
  · exact ⟨hlow.le, hhigh.le⟩
  · exact ⟨hlow, hhigh⟩

theorem has_iff : i.has d = true ↔ i.Holds d.value := by
  have scale : (0 : ℚ) < 10 ^ (-d.exponent).toNat := by positivity
  have num : ((d.digits * Nat.pow 10 d.exponent.toNat * i.den : ℕ) : ℚ) =
      d.value * i.den * 10 ^ (-d.exponent).toNat := by
    have := zpow_mul_pow_toNat (b := 10) (by norm_num) d.exponent
    simp only [Nat.pow_eq, Nat.cast_mul, Nat.cast_pow, Nat.cast_ofNat, Decimal.value, ← this]
    ring
  have cast (a : ℕ) : ((a * Nat.pow 10 (-d.exponent).toNat : ℕ) : ℚ) =
      a * 10 ^ (-d.exponent).toNat := by
    simp only [Nat.pow_eq, Nat.cast_mul, Nat.cast_pow, Nat.cast_ofNat]
  unfold has Holds
  dsimp only
  split <;>
    rw [Bool.and_eq_true, decide_eq_true_eq, decide_eq_true_eq]
  · rw [← Nat.cast_le (α := ℚ), ← Nat.cast_le (α := ℚ), num, cast, cast,
      mul_le_mul_iff_of_pos_right scale, mul_le_mul_iff_of_pos_right scale]
  · rw [← Nat.cast_lt (α := ℚ), ← Nat.cast_lt (α := ℚ), num, cast, cast,
      mul_lt_mul_iff_of_pos_right scale, mul_lt_mul_iff_of_pos_right scale]

/-! ### Grids -/

theorem floorAt_le : (i.floorAt e : ℚ) * 10 ^ e * i.den ≤ i.value := by
  have scale : (0 : ℚ) < 10 ^ (-e).toNat := by positivity
  have floor := Nat.div_mul_le_self (i.value * Nat.pow 10 (-e).toNat) (i.den * Nat.pow 10 e.toNat)
  rw [← Nat.cast_le (α := ℚ)] at floor
  simp only [Nat.pow_eq, Nat.cast_mul, Nat.cast_pow, Nat.cast_ofNat,
    ← zpow_mul_pow_toNat (b := 10) (by norm_num) e] at floor
  refine le_of_mul_le_mul_right (le_of_eq_of_le ?_ floor) scale
  simp only [floorAt, Nat.pow_eq]
  ring

theorem lt_floorAt_succ (hden : 0 < i.den) :
    (i.value : ℚ) < (i.floorAt e + 1) * 10 ^ e * i.den := by
  have scale : (0 : ℚ) < 10 ^ (-e).toNat := by positivity
  have pos : 0 < i.den * Nat.pow 10 e.toNat := Nat.mul_pos hden (Nat.pow_pos (by norm_num))
  have floor := Nat.lt_mul_of_div_lt
    (Nat.lt_succ_self (i.value * Nat.pow 10 (-e).toNat / (i.den * Nat.pow 10 e.toNat))) pos
  rw [← Nat.cast_lt (α := ℚ)] at floor
  simp only [Nat.pow_eq, Nat.cast_mul, Nat.cast_pow, Nat.cast_ofNat, Nat.succ_eq_add_one,
    Nat.cast_add, Nat.cast_one, ← zpow_mul_pow_toNat (b := 10) (by norm_num) e] at floor
  refine lt_of_mul_lt_mul_right (lt_of_lt_of_eq floor ?_) scale.le
  simp only [floorAt, Nat.pow_eq]
  ring

theorem has_of_onGrid (h : i.onGrid e = some d) : i.has d = true := by
  unfold onGrid at h
  dsimp only at h
  split at h
  · rename_i down up
    cases h
    split
    · exact up
    · exact down
  · rename_i down _
    cases h
    exact down
  · rename_i _ up
    cases h
    exact up
  · cases h

theorem not_has_of_onGrid (h : i.onGrid e = none) :
    i.has ⟨i.floorAt e, e⟩ = false ∧ i.has ⟨i.floorAt e + 1, e⟩ = false := by
  unfold onGrid at h
  dsimp only at h
  split at h <;> cases h
  exact ⟨‹_›, ‹_›⟩

/-- A grid that is finer than the interval is wide has a point inside, next to the value. -/
theorem onGrid_ne_none (hden : 0 < i.den) (hlow : i.low < i.value) (hhigh : i.value < i.high)
    (fine : (10 : ℚ) ^ e * i.den < i.high - i.low) : i.onGrid e ≠ none := by
  intro none
  have below : (i.low : ℚ) < i.value := by exact_mod_cast hlow
  have above : (i.value : ℚ) < i.high := by exact_mod_cast hhigh
  obtain ⟨down, up⟩ := not_has_of_onGrid none
  rw [← Bool.not_eq_true, has_iff] at down up
  have hdown : (i.floorAt e : ℚ) * 10 ^ e * i.den ≤ i.low := by
    by_contra outside
    exact down (holds_of_lt (not_le.1 outside) (lt_of_le_of_lt floorAt_le above))
  have hup : (i.high : ℚ) ≤ (i.floorAt e + 1) * 10 ^ e * i.den := by
    by_contra inside
    refine up (holds_of_lt ?_ ?_)
    · simp only [Decimal.value, Nat.cast_add, Nat.cast_one]
      exact lt_trans below (lt_floorAt_succ hden)
    · simp only [Decimal.value, Nat.cast_add, Nat.cast_one]
      exact not_le.1 inside
  linarith

theorem has_search_of_onGrid (k : ℤ) {m : ℕ} (hm : i.onGrid (k - m) ≠ none) (left n : ℕ)
    (hn : n ≤ m) (hleft : m < n + left) : i.has (i.search k left n) = true := by
  induction left generalizing n with
  | zero => omega
  | succ left ih =>
    rw [search]
    split
    · exact has_of_onGrid ‹_›
    · rename_i none
      have : n ≠ m := fun h => hm (h ▸ none)
      exact ih (n + 1) (by omega) (by omega)

end Interval

/-! ### Magnitudes -/

theorem pow_digitCount_le {n : ℕ} (hn : 0 < n) : 10 ^ (digitCount n - 1) ≤ n := by
  by_contra small
  have pos : 0 < digitCount n := Nat.length_toDigits_pos
  have few : 0 < digitCount n - 1 := by
    by_contra one
    have : digitCount n - 1 = 0 := by omega
    rw [this] at small
    omega
  have := (Nat.length_toDigits_le_iff (b := 10) (by norm_num) few).2 (not_le.1 small)
  unfold digitCount at this pos
  omega

theorem lt_pow_digitCount (n : ℕ) : n < 10 ^ digitCount n :=
  (Nat.length_toDigits_le_iff (b := 10) (by norm_num) Nat.length_toDigits_pos).1 le_rfl

theorem pow_magnitude_le {num den : ℕ} (hnum : 0 < num) (hden : 0 < den) :
    (10 : ℚ) ^ (magnitude num den - 1) * den ≤ num := by
  unfold magnitude
  split
  case isTrue large =>
    have quotient : 0 < num / den := Nat.div_pos large hden
    have pos : 0 < digitCount (num / den) := Nat.length_toDigits_pos
    have exponent :
        ((digitCount (num / den) : ℤ) - 1) = ((digitCount (num / den) - 1 : ℕ) : ℤ) := by
      omega
    rw [exponent, zpow_natCast]
    have := Nat.mul_le_mul_right den (pow_digitCount_le quotient)
    exact_mod_cast this.trans (Nat.div_mul_le_self num den)
  case isFalse small =>
    -- the denominator is at most the numerator times the power of ten
    have rounded := lt_pow_digitCount ((den + num - 1) / num - 1)
    have upper : den ≤ ((den + num - 1) / num) * num := by
      have := Nat.lt_mul_of_div_lt (Nat.lt_succ_self ((den + num - 1) / num)) hnum
      rw [Nat.succ_eq_add_one, Nat.add_mul, Nat.one_mul] at this
      omega
    have power : den ≤ 10 ^ digitCount ((den + num - 1) / num - 1) * num :=
      upper.trans (Nat.mul_le_mul_right num (by omega))
    have cast : (den : ℚ) ≤ 10 ^ digitCount ((den + num - 1) / num - 1) * num := by
      exact_mod_cast power
    have exponent : (1 - (digitCount ((den + num - 1) / num - 1) : ℤ) - 1) =
        -(digitCount ((den + num - 1) / num - 1) : ℤ) := by omega
    rw [exponent, zpow_neg, zpow_natCast, inv_mul_le_iff₀ (by positivity)]
    exact cast

/-! ### Intervals of doubles -/

/-- The parts of a double that is not zero: the mantissa has its leading bit, unless the
exponent is the least. -/
structure Parts.Canonical (p : Parts) : Prop where
  pos : 0 < p.mantissa
  lt : p.mantissa < 2 ^ 53
  least : leastExponent ≤ p.exponent
  leading : 2 ^ 52 ≤ p.mantissa ∨ p.exponent = leastExponent

namespace Interval
variable {p p' : Parts} {v : ℚ}

/-- The distance of the lower end, in quarters of the unit of the mantissa. -/
def below (p : Parts) : ℕ := if p.mantissa = 2 ^ 52 ∧ leastExponent < p.exponent then 1 else 2

theorem below_le (p : Parts) : 1 ≤ below p ∧ below p ≤ 2 := by
  unfold below
  split <;> omega

theorem den_pos (p : Parts) : 0 < (ofParts p).den := Nat.pow_pos (by norm_num)

theorem low_eq (p : Parts) : (ofParts p).low =
    (4 * p.mantissa - below p) * 2 ^ (p.exponent - 2).toNat := rfl

theorem value_eq (p : Parts) : (ofParts p).value =
    4 * p.mantissa * 2 ^ (p.exponent - 2).toNat := rfl

theorem high_eq (p : Parts) : (ofParts p).high =
    (4 * p.mantissa + 2) * 2 ^ (p.exponent - 2).toNat := rfl

/-- Quarters of the unit of the mantissa. -/
theorem unit_eq (p : Parts) :
    ((2 ^ (p.exponent - 2).toNat : ℕ) : ℚ) = 2 ^ (p.exponent - 2) * (ofParts p).den := by
  have den : (ofParts p).den = 2 ^ (-(p.exponent - 2)).toNat := by
    show 2 ^ (2 - p.exponent).toNat = _
    rw [neg_sub]
  have := zpow_mul_pow_toNat (b := 2) (by norm_num) (p.exponent - 2)
  rw [den]
  push_cast
  exact this.symm

theorem cast_low (h : p.Canonical) :
    ((4 * p.mantissa - below p : ℕ) : ℚ) = 4 * p.mantissa - below p := by
  have hbelow := below_le p
  have pos := h.pos
  rw [Nat.cast_sub (by omega)]
  push_cast
  rfl

/-- Seventeen digits reach into the interval. -/
theorem has_search (h : p.Canonical) : let i := ofParts p
    i.has (i.search (magnitude i.value i.den) 17 1) = true := by
  intro i
  have pos := h.pos
  have lt := h.lt
  have hbelow := below_le p
  have hup : 0 < 2 ^ (p.exponent - 2).toNat := Nat.pow_pos (by norm_num)
  have up : (0 : ℚ) < (2 ^ (p.exponent - 2).toNat : ℕ) := by exact_mod_cast hup
  refine has_search_of_onGrid _ (m := 17) (onGrid_ne_none (den_pos p) ?_ ?_ ?_) 17 1
    (by norm_num) (by norm_num)
  · rw [low_eq, value_eq]
    exact Nat.mul_lt_mul_of_pos_right (by omega) hup
  · rw [value_eq, high_eq]
    exact Nat.mul_lt_mul_of_pos_right (by omega) hup
  · have value : (10 : ℚ) ^ (magnitude i.value i.den - 1) * i.den ≤ i.value :=
      pow_magnitude_le (Nat.mul_pos (by omega) hup) (den_pos p)
    rw [show (i.value : ℚ) = (4 * p.mantissa * 2 ^ (p.exponent - 2).toNat : ℕ) from rfl] at value
    have exponent : (10 : ℚ) ^ (magnitude i.value i.den - (17 : ℕ)) * 10 ^ 16 =
        10 ^ (magnitude i.value i.den - 1) := by
      rw [← zpow_natCast, ← zpow_add₀ (by norm_num)]
      congr 1
      push_cast
      omega
    have wide : 4 * p.mantissa < (2 + below p) * 10 ^ 16 := by
      unfold below
      split <;> omega
    have wide' : (4 : ℚ) * p.mantissa < (2 + below p) * 10 ^ 16 := by exact_mod_cast wide
    have width : ((ofParts p).high : ℚ) - (ofParts p).low =
        (2 + below p) * (2 ^ (p.exponent - 2).toNat : ℕ) := by
      rw [low_eq, high_eq, Nat.cast_mul, Nat.cast_mul, cast_low h]
      push_cast
      ring
    show _ < ((ofParts p).high : ℚ) - (ofParts p).low
    rw [width]
    refine lt_of_mul_lt_mul_right ?_ (by norm_num : (0 : ℚ) ≤ 10 ^ 16)
    calc (10 : ℚ) ^ (magnitude i.value i.den - (17 : ℕ)) * i.den * 10 ^ 16
        = 10 ^ (magnitude i.value i.den - 1) * i.den := by rw [← exponent]; ring
      _ ≤ 4 * p.mantissa * (2 ^ (p.exponent - 2).toNat : ℕ) := by
        rw [Nat.cast_mul] at value
        exact_mod_cast value
      _ < (2 + below p) * 10 ^ 16 * (2 ^ (p.exponent - 2).toNat : ℕ) :=
        mul_lt_mul_of_pos_right wide' up
      _ = (2 + below p) * (2 ^ (p.exponent - 2).toNat : ℕ) * 10 ^ 16 := by ring

/-- The ends of the interval, in quarters of the unit. -/
theorem Holds.quarters (h : p.Canonical) (hv : (ofParts p).Holds v) :
    (4 * p.mantissa - below p : ℚ) * 2 ^ (p.exponent - 2) ≤ v ∧
      v ≤ (4 * p.mantissa + 2) * 2 ^ (p.exponent - 2) := by
  have hden : (0 : ℚ) < (ofParts p).den := by exact_mod_cast den_pos p
  obtain ⟨low, high⟩ := hv.bounds
  rw [low_eq, Nat.cast_mul, unit_eq, cast_low h, ← mul_assoc] at low
  rw [high_eq, Nat.cast_mul, unit_eq, ← mul_assoc] at high
  push_cast at high
  exact ⟨le_of_mul_le_mul_right low hden, le_of_mul_le_mul_right high hden⟩

/-- The upper end belongs to the interval only if the mantissa is even. -/
theorem Holds.even (hv : (ofParts p).Holds v)
    (hend : v = (4 * p.mantissa + 2) * 2 ^ (p.exponent - 2)) : p.mantissa % 2 = 0 := by
  have closed := hv.closed (.inr ?_)
  · exact of_decide_eq_true closed
  · rw [high_eq, Nat.cast_mul, unit_eq, hend]
    push_cast
    ring

/-- The lower end belongs to the interval only if the mantissa is even. -/
theorem Holds.even_of_low (h : p.Canonical) (hv : (ofParts p).Holds v)
    (hend : v = (4 * p.mantissa - below p) * 2 ^ (p.exponent - 2)) : p.mantissa % 2 = 0 := by
  have closed := hv.closed (.inl ?_)
  · exact of_decide_eq_true closed
  · rw [low_eq, Nat.cast_mul, unit_eq, hend, cast_low h]
    ring

/-- The interval of a double ends where that of a greater one starts, at the latest, and one of
two mantissas that meet there is odd. -/
theorem not_holds_of_lt (h : p.Canonical) (h' : p'.Canonical)
    (hlt : p.exponent < p'.exponent ∨
      p.exponent = p'.exponent ∧ p.mantissa < p'.mantissa)
    (hv : (ofParts p).Holds v) : ¬ (ofParts p').Holds v := by
  intro hv'
  obtain ⟨-, high⟩ := hv.quarters h
  obtain ⟨low, -⟩ := hv'.quarters h'
  have unit : (0 : ℚ) < 2 ^ (p.exponent - 2) := by positivity
  have hbelow := below_le p'
  rcases hlt with hlt | ⟨same, hlt⟩
  · -- the greater mantissa has its leading bit, and its unit is at least twice the other
    have lt := h.lt
    have leading : 2 ^ 52 ≤ p'.mantissa := by
      have := h.least
      exact h'.leading.resolve_right (by omega)
    have start : 2 ^ 54 ≤ 4 * p'.mantissa - below p' + 1 := by
      unfold below
      have := h.least
      split <;> omega
    have start' : (2 : ℚ) ^ 54 ≤ 4 * p'.mantissa - below p' + 1 := by
      rw [← cast_low h']
      exact_mod_cast start
    have double : 2 * (2 : ℚ) ^ (p.exponent - 2) ≤ 2 ^ (p'.exponent - 2) := by
      rw [← zpow_one_add₀ (by norm_num)]
      exact zpow_le_zpow_right₀ (by norm_num) (by omega)
    have reach : ((2 : ℚ) ^ 55 - 2) * 2 ^ (p.exponent - 2) ≤ v := by
      calc ((2 : ℚ) ^ 55 - 2) * 2 ^ (p.exponent - 2)
          = (2 ^ 54 - 1) * (2 * 2 ^ (p.exponent - 2)) := by ring
        _ ≤ (2 ^ 54 - 1) * 2 ^ (p'.exponent - 2) :=
          mul_le_mul_of_nonneg_left double (by norm_num)
        _ ≤ (4 * p'.mantissa - below p') * 2 ^ (p'.exponent - 2) :=
          mul_le_mul_of_nonneg_right (by linarith) (by positivity)
        _ ≤ v := low
    have last : (2 : ℚ) ^ 55 - 2 ≤ 4 * p.mantissa + 2 :=
      le_of_mul_le_mul_right (reach.trans high) unit
    have last' : p.mantissa = 2 ^ 53 - 1 := by
      have : 2 ^ 55 ≤ 4 * p.mantissa + 4 := by
        have : (2 : ℚ) ^ 55 ≤ 4 * p.mantissa + 4 := by linarith
        exact_mod_cast this
      omega
    have hend : v = (4 * p.mantissa + 2) * 2 ^ (p.exponent - 2) := by
      refine le_antisymm high (le_trans (le_of_eq ?_) reach)
      rw [last']
      norm_num
    have := hv.even hend
    omega
  · rw [← same] at low
    have meet : (4 * p'.mantissa - below p' : ℚ) ≤ 4 * p.mantissa + 2 :=
      le_of_mul_le_mul_right (low.trans high) unit
    have next : 4 * p'.mantissa ≤ 4 * p.mantissa + 2 + below p' := by
      have : (4 * p'.mantissa : ℚ) ≤ 4 * p.mantissa + 2 + below p' := by linarith
      exact_mod_cast this
    have next' : p'.mantissa = p.mantissa + 1 ∧ below p' = 2 := by omega
    have hends : (4 * p'.mantissa - below p' : ℚ) = 4 * p.mantissa + 2 := by
      rw [next'.1, next'.2]
      push_cast
      ring
    rw [hends] at low
    have hend := le_antisymm high low
    have even := hv.even hend
    have even' := hv'.even_of_low h' (by rw [hends, ← same]; exact hend)
    omega

/-- No number rounds to two doubles. -/
theorem Holds.unique (h : p.Canonical) (h' : p'.Canonical) (hv : (ofParts p).Holds v)
    (hv' : (ofParts p').Holds v) :
    p.mantissa = p'.mantissa ∧ p.exponent = p'.exponent := by
  rcases lt_trichotomy p.exponent p'.exponent with hlt | same | hgt
  · exact absurd hv' (not_holds_of_lt h h' (.inl hlt) hv)
  · rcases lt_trichotomy p.mantissa p'.mantissa with hlt | equal | hgt
    · exact absurd hv' (not_holds_of_lt h h' (.inr ⟨same, hlt⟩) hv)
    · exact ⟨equal, same⟩
    · exact absurd hv (not_holds_of_lt h' h (.inr ⟨same.symm, hgt⟩) hv')
  · exact absurd hv (not_holds_of_lt h' h (.inl hgt) hv')

end Interval

/-! ### Doubles -/

theorem fractionBits_lt (x : Float) : fractionBits x < 2 ^ 52 := Nat.mod_lt _ (by norm_num)

theorem parts_canonical {x : Float} (h : (parts x).mantissa ≠ 0) : (parts x).Canonical := by
  have fraction := fractionBits_lt x
  unfold parts at h ⊢
  split at h
  case isTrue zero =>
    rw [if_pos zero]
    exact ⟨Nat.pos_of_ne_zero h, by dsimp only; omega, le_rfl, .inr rfl⟩
  case isFalse nonzero =>
    rw [if_neg nonzero]
    refine ⟨Nat.pos_of_ne_zero h, ?_, ?_, .inl ?_⟩
    · show fractionBits x + 2 ^ 52 < 2 ^ 53
      omega
    · show -1074 ≤ (exponentBits x : ℤ) - 1075
      omega
    · exact Nat.le_add_left _ _

theorem exponent_of_mantissa_eq_zero {x : Float} (h : (parts x).mantissa = 0) :
    (parts x).exponent = leastExponent := by
  unfold parts at h ⊢
  split at h
  · rw [if_pos ‹_›]
  · exact absurd h (Nat.succ_ne_zero _)

theorem eq_of_parts_eq {x y : Float} (sign : signBit x = signBit y)
    (mantissa : (parts x).mantissa = (parts y).mantissa)
    (exponent : (parts x).exponent = (parts y).exponent) : x = y := by
  have hx := fractionBits_lt x
  have hy := fractionBits_lt y
  refine eq_of_toBits (UInt64.toNat_inj.1 ?_)
  rw [toNat_toBits, toNat_toBits, sign]
  by_cases zx : exponentBits x = 0 <;> by_cases zy : exponentBits y = 0
  all_goals
    simp only [parts, leastExponent, zx, zy, if_true, if_false, Nat.pow_eq] at mantissa exponent ⊢
    omega

/-- The digits of a double that is not zero are those of no other double of its sign. -/
theorem eq_of_shortest_eq {x y : Float} (sign : signBit x = signBit y)
    (hx : (parts x).mantissa ≠ 0) (hy : (parts y).mantissa ≠ 0)
    (digits : (shortest x).value = (shortest y).value) : x = y := by
  have holds := Interval.has_iff.1 (Interval.has_search (parts_canonical hx))
  have holds' := Interval.has_iff.1 (Interval.has_search (parts_canonical hy))
  change (Interval.ofParts (parts x)).Holds (shortest x).value at holds
  rw [digits] at holds
  obtain ⟨mantissa, exponent⟩ := holds.unique (parts_canonical hx) (parts_canonical hy) holds'
  exact eq_of_parts_eq sign mantissa exponent

end StagedMapping.Number
