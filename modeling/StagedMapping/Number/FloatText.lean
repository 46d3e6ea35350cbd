import StagedMapping.Number.Shortest

/-! The two written forms of a double, both with the fewest digits that read back.
`render` always shows that the number is not an integer, by a point or an exponent, and
writes sizes from 10^-4 up to 10^16 without an exponent; `plain` never has an exponent
and leaves out an empty fraction. -/
namespace StagedMapping.Number

/-- The digits without trailing zeros. -/
def significant (d : Decimal) : List Char :=
  ((Nat.toDigits 10 d.digits).reverse.dropWhile (· == '0')).reverse

/-- Where the decimal point stands, counted from the first digit. -/
def pointAt (d : Decimal) : Int := (digitCount d.digits : Int) + d.exponent

/-- The digits with a point after the first `point` of them and zeros where they run
out; the second part is the fraction, without the point. -/
def positional (digits : List Char) (point : Int) : List Char × List Char :=
  if point ≤ 0 then (['0'], List.replicate (-point).toNat '0' ++ digits)
  else
    (digits.take point.toNat ++ List.replicate (point.toNat - digits.length) '0',
      digits.drop point.toNat)

/-- One digit before the point, and the exponent of ten. -/
def scientific (digits : List Char) (point : Int) : List Char :=
  let fraction := digits.drop 1
  digits.take 1 ++ (if fraction.isEmpty then [] else '.' :: fraction) ++
    'e' :: (toString (point - 1)).toList

/-- The sign, then the text of the size. -/
def signed (x : Float) (size : List Char) : String :=
  String.ofList (if signBit x then '-' :: size else size)

/-- With a point or an exponent. -/
def render (x : Float) : String :=
  if x.isNaN then "NaN"
  else if x.isInf then signed x ['i', 'n', 'f']
  else if x == 0.0 then signed x ['0', '.', '0']
  else
    let d := shortest x
    let digits := significant d
    let point := pointAt d
    if -4 < point ∧ point ≤ 16 then
      let (whole, fraction) := positional digits point
      signed x (whole ++ '.' :: (if fraction.isEmpty then ['0'] else fraction))
    else signed x (scientific digits point)

/-- The size of a finite double, without an exponent. -/
def plainSize (x : Float) : List Char :=
  if x == 0.0 then ['0']
  else
    let d := shortest x
    let (whole, fraction) := positional (significant d) (pointAt d)
    whole ++ (if fraction.isEmpty then [] else '.' :: fraction)

/-- Without an exponent. -/
def plain (x : Float) : String :=
  if x.isNaN then "NaN"
  else if x.isInf then signed x ['i', 'n', 'f']
  else signed x (plainSize x)

end StagedMapping.Number
