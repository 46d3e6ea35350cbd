import StagedMapping.Number.Binary64

/-! The fewest decimal digits that read back as a given double. `Interval` is the range
of reals that round to it; the digits are found on the coarsest decimal grid that has a
point inside, next to the double itself. -/
namespace StagedMapping.Number

/-- The reals that round to one positive double, as numbers over the denominator `den`. -/
structure Interval where
  low : Nat
  value : Nat
  high : Nat
  den : Nat
  closed : Bool

/-- The ends lie halfway to the neighbours, and belong to it iff the mantissa is even. -/
def Interval.ofParts (p : Parts) : Interval :=
  let up := Nat.pow 2 (p.exponent - 2).toNat
  let den := Nat.pow 2 (2 - p.exponent).toNat
  let below := if p.mantissa = Nat.pow 2 52 ∧ leastExponent < p.exponent then 1 else 2
  ⟨(4 * p.mantissa - below) * up, 4 * p.mantissa * up, (4 * p.mantissa + 2) * up, den,
    p.mantissa % 2 = 0⟩

/-- Digits · 10^exponent. -/
structure Decimal where
  digits : Nat
  exponent : Int
  deriving DecidableEq, Repr

/-- `d · 10^e` lies in the interval. -/
def Interval.has (i : Interval) (d : Decimal) : Bool :=
  let num := d.digits * Nat.pow 10 d.exponent.toNat * i.den
  let scale := Nat.pow 10 (-d.exponent).toNat
  if i.closed then i.low * scale ≤ num && num ≤ i.high * scale
  else i.low * scale < num && num < i.high * scale

/-- Number of decimal digits. -/
def digitCount (n : Nat) : Nat := (Nat.toDigits 10 n).length

/-- The `k` with 10^(k-1) ≤ num/den < 10^k, for a positive `num`. -/
def magnitude (num den : Nat) : Int :=
  if den ≤ num then digitCount (num / den)
  else 1 - digitCount ((den + num - 1) / num - 1)

/-- The value rounded down on the grid of multiples of 10^e. -/
def Interval.floorAt (i : Interval) (e : Int) : Nat :=
  i.value * Nat.pow 10 (-e).toNat / (i.den * Nat.pow 10 e.toNat)

/-- Twice the value is at least the sum of the grid points `d` and `d + 1`. -/
def Interval.upperNearer (i : Interval) (d : Nat) (e : Int) : Bool :=
  (2 * d + 1) * Nat.pow 10 e.toNat * i.den ≤ 2 * i.value * Nat.pow 10 (-e).toNat

/-- The better of the two grid points next to the value that lies inside. -/
def Interval.onGrid (i : Interval) (e : Int) : Option Decimal :=
  let d := i.floorAt e
  let down : Decimal := ⟨d, e⟩
  let up : Decimal := ⟨d + 1, e⟩
  match i.has down, i.has up with
  | true, true => some (if i.upperNearer d e then up else down)
  | true, false => some down
  | false, true => some up
  | false, false => none

/-- Tries grids of `n`, `n + 1`, … digits; seventeen always suffice. -/
def Interval.search (i : Interval) (k : Int) : Nat → Nat → Decimal
  | 0, n => ⟨i.floorAt (k - n), k - n⟩
  | left + 1, n =>
    match i.onGrid (k - n) with
    | some d => d
    | none => i.search k left (n + 1)

/-- The fewest digits for the size of a finite double that is not zero. -/
def shortest (x : Float) : Decimal :=
  let i := Interval.ofParts (parts x)
  i.search (magnitude i.value i.den) 17 1

end StagedMapping.Number
