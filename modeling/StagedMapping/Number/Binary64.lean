/-! Doubles as exact numbers. A finite double is a mantissa times a power of two
(`parts`); `ofParts` builds one back, `ofInt64` rounds an integer to one, and `remainder` is
the exact remainder of a division truncated toward zero. -/
namespace StagedMapping.Number

/-- The exponent of the smallest doubles. -/
def leastExponent : Int := -1074

/-- Sign, mantissa and exponent of a finite double: its size is mantissa · 2^exponent. -/
structure Parts where
  negative : Bool
  mantissa : Nat
  exponent : Int
  deriving DecidableEq, Repr

/-- The fields of the bit pattern. -/
def signBit (x : Float) : Bool := x.toBits.toNat / Nat.pow 2 63 = 1

def exponentBits (x : Float) : Nat := x.toBits.toNat / Nat.pow 2 52 % Nat.pow 2 11

def fractionBits (x : Float) : Nat := x.toBits.toNat % Nat.pow 2 52

/-- Read off the bit pattern; meant for finite doubles. -/
def parts (x : Float) : Parts :=
  if exponentBits x = 0 then ⟨signBit x, fractionBits x, leastExponent⟩
  else ⟨signBit x, fractionBits x + Nat.pow 2 52, exponentBits x - 1075⟩

/-- Doubles the mantissa while it stays below 2^53 and the exponent above the least,
at most `steps` times. -/
def normalize : Nat → Nat → Int → Nat × Int
  | 0, m, q => (m, q)
  | steps + 1, m, q =>
    if m < Nat.pow 2 52 ∧ leastExponent < q then normalize steps (2 * m) (q - 1) else (m, q)

/-- The double of size mantissa · 2^exponent, for a mantissa below 2^53 and an exponent
of at least `leastExponent`. -/
def ofParts (p : Parts) : Float :=
  let (m, q) := normalize 53 p.mantissa p.exponent
  let sign := if p.negative then Nat.pow 2 63 else 0
  let size := if m < Nat.pow 2 52 then m else (q + 1075).toNat * Nat.pow 2 52 + (m - Nat.pow 2 52)
  Float.ofBits (UInt64.ofNat (sign + size))

/-- The double nearest to an integer, and of two that are equally near the one with the even
mantissa. -/
def ofInt64 (n : Int64) : Float := .ofModel (.ofInt64 n)

/-- The remainder of `x / y` truncated toward zero, exact, with the sign of `x`. -/
def remainder (x y : Float) : Float :=
  if x.isNaN || y.isNaN || x.isInf || y == 0.0 then 0.0 / 0.0
  else if y.isInf then x
  else
    let a := parts x
    let b := parts y
    let q := min a.exponent b.exponent
    let m := a.mantissa * Nat.pow 2 (a.exponent - q).toNat %
      (b.mantissa * Nat.pow 2 (b.exponent - q).toNat)
    ofParts ⟨a.negative, m, q⟩

end StagedMapping.Number
