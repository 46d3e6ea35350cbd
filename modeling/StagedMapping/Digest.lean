/-! SHA-256, and the short digest of a declaration made from it. The message schedule
is a list with the latest word in front, the chaining value a record of eight words. -/
namespace StagedMapping.Digest

/-- The eight words that are carried from block to block. -/
structure Chain where
  a : UInt32
  b : UInt32
  c : UInt32
  d : UInt32
  e : UInt32
  f : UInt32
  g : UInt32
  h : UInt32

/-- Fractional parts of the square roots of the first eight primes. -/
def Chain.initial : Chain :=
  ⟨0x6a09e667, 0xbb67ae85, 0x3c6ef372, 0xa54ff53a, 0x510e527f, 0x9b05688c, 0x1f83d9ab, 0x5be0cd19⟩

/-- Fractional parts of the cube roots of the first sixty-four primes. -/
def roundConstants : List UInt32 :=
  [0x428a2f98, 0x71374491, 0xb5c0fbcf, 0xe9b5dba5, 0x3956c25b, 0x59f111f1, 0x923f82a4, 0xab1c5ed5,
    0xd807aa98, 0x12835b01, 0x243185be, 0x550c7dc3, 0x72be5d74, 0x80deb1fe, 0x9bdc06a7, 0xc19bf174,
    0xe49b69c1, 0xefbe4786, 0x0fc19dc6, 0x240ca1cc, 0x2de92c6f, 0x4a7484aa, 0x5cb0a9dc, 0x76f988da,
    0x983e5152, 0xa831c66d, 0xb00327c8, 0xbf597fc7, 0xc6e00bf3, 0xd5a79147, 0x06ca6351, 0x14292967,
    0x27b70a85, 0x2e1b2138, 0x4d2c6dfc, 0x53380d13, 0x650a7354, 0x766a0abb, 0x81c2c92e, 0x92722c85,
    0xa2bfe8a1, 0xa81a664b, 0xc24b8b70, 0xc76c51a3, 0xd192e819, 0xd6990624, 0xf40e3585, 0x106aa070,
    0x19a4c116, 0x1e376c08, 0x2748774c, 0x34b0bcb5, 0x391c0cb3, 0x4ed8aa4a, 0x5b9cca4f, 0x682e6ff3,
    0x748f82ee, 0x78a5636f, 0x84c87814, 0x8cc70208, 0x90befffa, 0xa4506ceb, 0xbef9a3f7, 0xc67178f2]

def rotate (x n : UInt32) : UInt32 := (x >>> n) ||| (x <<< (32 - n))

def sigma0 (x : UInt32) : UInt32 := rotate x 7 ^^^ rotate x 18 ^^^ (x >>> 3)

def sigma1 (x : UInt32) : UInt32 := rotate x 17 ^^^ rotate x 19 ^^^ (x >>> 10)

/-- The next word of a schedule that is kept latest first. -/
def nextWord (latest : List UInt32) : UInt32 :=
  sigma1 (latest.getD 1 0) + latest.getD 6 0 + sigma0 (latest.getD 14 0) + latest.getD 15 0

/-- `n` more words in front. -/
def extend (latest : List UInt32) : Nat → List UInt32
  | 0 => latest
  | n + 1 => extend (nextWord latest :: latest) n

/-- Big-endian words of a list of bytes. -/
def words : List UInt8 → List UInt32
  | a :: b :: c :: d :: rest =>
    ((a.toUInt32 <<< 24) ||| (b.toUInt32 <<< 16) ||| (c.toUInt32 <<< 8) ||| d.toUInt32) ::
      words rest
  | _ => []

/-- The sixty-four words of one block of sixteen. -/
def schedule (block : List UInt32) : List UInt32 := (extend block.reverse 48).reverse

/-- One round. -/
def Chain.round (s : Chain) (k w : UInt32) : Chain :=
  let sum1 := rotate s.e 6 ^^^ rotate s.e 11 ^^^ rotate s.e 25
  let choice := (s.e &&& s.f) ^^^ (~~~s.e &&& s.g)
  let t1 := s.h + sum1 + choice + k + w
  let sum0 := rotate s.a 2 ^^^ rotate s.a 13 ^^^ rotate s.a 22
  let majority := (s.a &&& s.b) ^^^ (s.a &&& s.c) ^^^ (s.b &&& s.c)
  ⟨t1 + (sum0 + majority), s.a, s.b, s.c, s.d + t1, s.e, s.f, s.g⟩

/-- Sixty-four rounds, added onto the chaining value they started from. -/
def Chain.compress (s : Chain) (block : List UInt32) : Chain :=
  let t := (roundConstants.zip (schedule block)).foldl (fun t p => t.round p.1 p.2) s
  ⟨s.a + t.a, s.b + t.b, s.c + t.c, s.d + t.d, s.e + t.e, s.f + t.f, s.g + t.g, s.h + t.h⟩

/-- Compresses sixteen words at a time. -/
def Chain.absorb (s : Chain) (ws : List UInt32) : Chain :=
  if ws.length < 16 then s else (s.compress (ws.take 16)).absorb (ws.drop 16)
termination_by ws.length
decreasing_by simp only [List.length_drop]; omega

/-- The message, a one bit, zeros up to a whole block, and the length in bits. -/
def pad (message : List UInt8) : List UInt8 :=
  let n := message.length
  message ++ 0x80 :: List.replicate ((119 - n % 64) % 64) 0 ++
    (List.range 8).map fun i => UInt8.ofNat (8 * n / Nat.pow 2 (8 * (7 - i)) % 256)

/-- The words of the hash. -/
def sha256 (message : List UInt8) : List UInt32 :=
  let s := Chain.initial.absorb (words (pad message))
  [s.a, s.b, s.c, s.d, s.e, s.f, s.g, s.h]

/-- Eight lowercase hexadecimal digits. -/
def wordDigits (w : UInt32) : List Char :=
  (List.range 8).map fun i => Nat.digitChar (w.toNat / Nat.pow 16 (7 - i) % 16)

/-- Hexadecimal digits kept of a hash. -/
def shortLength : Nat := 6

/-- The first digits of the SHA-256 of the text's UTF-8 form: enough to keep apart the
generated names of overloads. -/
def short (declaration : String) : String :=
  String.ofList (((sha256 declaration.toUTF8.toList).flatMap wordDigits).take shortLength)

end StagedMapping.Digest
