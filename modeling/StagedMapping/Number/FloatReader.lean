/-! Reading a double. The text is an optional sign and then `inf`, `infinity` or `nan` in
any case, or digits with at most one point among them and an optional exponent. The
result is the nearest double. -/
namespace StagedMapping.Number

/-- The number written by decimal digits. -/
def digitsValue (cs : List Char) : Nat := cs.foldl (fun n c => 10 * n + (c.toNat - '0'.toNat)) 0

/-- The double nearest to `n · 10^e`; sizes out of reach are settled by the number of
digits. -/
def nearest (n : Nat) (e : Int) : Float :=
  let digits : Int := (Nat.toDigits 10 n).length
  if n = 0 then 0.0
  else if 310 < digits + e then 1.0 / 0.0
  else if digits + e < -330 then 0.0
  else if 0 ≤ e then Float.ofScientific n false e.toNat
  else Float.ofScientific n true (-e).toNat

/-- An optional sign: whether it is a minus, and what follows. -/
def readSign : List Char → Bool × List Char
  | '-' :: rest => (true, rest)
  | '+' :: rest => (false, rest)
  | cs => (false, cs)

/-- The exponent after the digits, `none` if what is left is not one. -/
def readExponent : List Char → Option Int
  | [] => some 0
  | c :: rest =>
    if c = 'e' ∨ c = 'E' then
      let (negative, digits) := readSign rest
      if digits.isEmpty || !digits.all Char.isDigit then none
      else some (if negative then -(digitsValue digits : Int) else digitsValue digits)
    else none

/-- Digits with an optional point, then an optional exponent. -/
def readSize (cs : List Char) : Option Float :=
  let whole := cs.takeWhile Char.isDigit
  let (fraction, rest) :=
    match cs.dropWhile Char.isDigit with
    | '.' :: rest => (rest.takeWhile Char.isDigit, rest.dropWhile Char.isDigit)
    | rest => ([], rest)
  if whole.isEmpty && fraction.isEmpty then none
  else
    (readExponent rest).map fun e =>
      nearest (digitsValue (whole ++ fraction)) (e - fraction.length)

/-- A double in any of its written forms. -/
def readFloat (cs : List Char) : Option Float :=
  let (negative, rest) := readSign cs
  let size :=
    match String.ofList (rest.map Char.toLower) with
    | "inf" => some (1.0 / 0.0)
    | "infinity" => some (1.0 / 0.0)
    | "nan" => some (0.0 / 0.0)
    | _ => readSize rest
  size.map fun x => if negative then -x else x

end StagedMapping.Number
