/-! Arithmetic on 64-bit integers that says when the exact result does not fit. -/
namespace StagedMapping.Number

/-- The 64-bit integer equal to `n`, if there is one. -/
def checked (n : Int) : Option Int64 :=
  if Int64.minValue.toInt ≤ n ∧ n ≤ Int64.maxValue.toInt then some (Int64.ofInt n) else none

/-- The quotient, rounded toward zero; the divisor is not zero. -/
def quotient (a b : Int64) : Option Int64 := checked (a.toInt.tdiv b.toInt)

/-- What is left by the quotient; there is none if the quotient does not fit. -/
def rest (a b : Int64) : Option Int64 :=
  (quotient a b).bind fun _ => checked (a.toInt.tmod b.toInt)

theorem toInt_of_checked {n : Int} {v : Int64} (h : checked n = some v) : v.toInt = n := by
  unfold checked at h
  split at h
  · next hr =>
    cases h
    have hmin : Int64.minValue.toInt = -2 ^ 63 := by decide
    have hmax : Int64.maxValue.toInt = 2 ^ 63 - 1 := by decide
    exact Int64.toInt_ofInt_of_le (by omega) (by omega)
  · cases h

theorem checked_toInt (v : Int64) : checked v.toInt = some v := by
  unfold checked
  rw [if_pos ⟨Int64.minValue_le_toInt v, Int64.toInt_le v⟩, Int64.ofInt_toInt]

end StagedMapping.Number
