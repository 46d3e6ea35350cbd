import StagedMapping.Text.Digit
import StagedMapping.Text.Word

/-! Literals of the generated language: texts, texts of bytes, texts that end with a zero
character, single characters and bytes, and numbers. `Literal.after?` gives what follows the
literal at the front of a text; a word that follows a literal directly is a part of it. -/
namespace StagedMapping.Generated.Literal

/-- What follows the word at the front, if there is one. -/
def afterSuffix (cs : List Char) : List Char :=
  match Text.splitWord cs with
  | some (_, rest) => rest
  | none => cs

/-! ### Escapes -/

/-- What may stand between quotes. -/
structure Spelling where
  plain : Char → Bool
  /-- What a backslash and one character may spell. -/
  short : List Char
  /-- The codes that two hexadecimal digits may spell. -/
  codes : Nat → Bool
  /-- Any code point may be spelled by its number. -/
  codePoints : Bool

def textSpelling : Spelling :=
  ⟨fun _ => true, ['n', 'r', 't', '\\', '\'', '"', '0'], (· < 128), true⟩

def byteSpelling : Spelling :=
  ⟨(·.toNat < 128), ['n', 'r', 't', '\\', '\'', '"', '0'], fun _ => true, false⟩

/-- The spelling of texts that end with a zero character and have no other one. -/
def terminatedSpelling : Spelling :=
  ⟨(·.toNat > 0), ['n', 'r', 't', '\\', '\'', '"'], (· > 0), true⟩

/-- The code point in braces after some digits, and what follows it. At most six digits count,
and underscores may stand between them. -/
def codePoint? (digits value : Nat) : List Char → Option (Char × List Char)
  | [] => none
  | c :: rest =>
    if digits > 0 ∧ c = '_' then codePoint? digits value rest
    else if digits > 0 ∧ c = '\x7d' then
      if value.isValidChar then some (Char.ofNat value, rest) else none
    else
      match Text.hexDigit? c with
      | some d => if digits < 6 then codePoint? (digits + 1) (value * 16 + d) rest else none
      | none => none

/-- What follows the rest of an escape. -/
def afterEscape? (s : Spelling) : List Char → Option (List Char)
  | 'x' :: a :: b :: rest => do
    let code := (← Text.hexDigit? a) * 16 + (← Text.hexDigit? b)
    if s.codes code then some rest else none
  | 'u' :: '\x7b' :: rest => do
    let (c, rest) ← codePoint? 0 0 rest
    if s.codePoints && s.plain c then some rest else none
  | c :: rest => if s.short.contains c then some rest else none
  | [] => none

/-! ### Quotes -/

def isLayout (c : Char) : Bool := c = ' ' || c = '\t' || c = '\n' || c = '\r'

/-- Every carriage return is a part of a line end. -/
def endsLines : List Char → Bool
  | [] => true
  | '\r' :: '\n' :: rest => endsLines rest
  | c :: rest => c ≠ '\r' && endsLines rest

/-- What follows a closing quote, for a text of at most `fuel` characters. A backslash at the
end of a line joins it with the next line that is not blank. -/
def afterText? (s : Spelling) : Nat → List Char → Option (List Char)
  | 0, _ | _, [] => none
  | _, '"' :: rest => some (afterSuffix rest)
  | fuel + 1, '\r' :: '\n' :: rest => afterText? s fuel rest
  | fuel + 1, '\\' :: c :: rest =>
    if c = '\n' ∨ c = '\r' then
      let more := rest.dropWhile isLayout
      if endsLines (c :: rest.takeWhile isLayout) && !more.isEmpty then afterText? s fuel more
      else none
    else (afterEscape? s (c :: rest)).bind (afterText? s fuel)
  | fuel + 1, c :: rest => if s.plain c ∧ c ≠ '\r' then afterText? s fuel rest else none

/-- What follows a quote that is closed together with some marks, in a text without
escapes. -/
def afterMarked? (s : Spelling) (marks : List Char) : List Char → Option (List Char)
  | [] => none
  | '\r' :: '\n' :: rest => afterMarked? s marks rest
  | c :: rest =>
    if c = '"' ∧ marks.isPrefixOf rest then some (afterSuffix (rest.drop marks.length))
    else if s.plain c ∧ c ≠ '\r' then afterMarked? s marks rest
    else none

/-- What follows a text without escapes, from the marks on. -/
def afterRaw? (s : Spelling) (cs : List Char) : Option (List Char) :=
  let marks := cs.takeWhile (· = '#')
  match cs.dropWhile (· = '#') with
  | '"' :: rest => if marks.length < 256 then afterMarked? s marks rest else none
  | _ => none

/-- What follows a single character, from the character on. -/
def afterChar? (s : Spelling) (cs : List Char) : Option (List Char) := do
  let rest ←
    match cs with
    | '\\' :: rest => afterEscape? s rest
    | c :: rest => if s.plain c then some rest else none
    | [] => none
  match rest with
  | '\'' :: rest => some (afterSuffix rest)
  | _ => none

/-! ### Numbers -/

/-- Digits may be grouped by underscores. -/
def isFigure (c : Char) : Bool := c.isDigit || c = '_'

/-- What follows a number with its suffix, after the digits. -/
def afterDigits? (cs : List Char) : Option (List Char) :=
  let rest := afterSuffix cs
  if rest.head?.any Text.isWordPart then none else some rest

/-- What follows an exponent, after its letter. -/
def afterExponent? (cs : List Char) : Option (List Char) :=
  let signed := cs.dropWhile (· = '_')
  let figures := if signed.head?.any fun c => c = '+' || c = '-' then signed.drop 1 else signed
  if (figures.takeWhile isFigure).any Char.isDigit then some (figures.dropWhile isFigure)
  else none

def isExponentMark (c : Char) : Bool := c = 'e' || c = 'E'

/-- What follows a number with a point or an exponent. -/
def afterFloat? (cs : List Char) : Option (List Char) := do
  if !cs.head?.any Char.isDigit then none
  match cs.dropWhile isFigure with
  | '.' :: rest =>
    if rest.head?.any fun c => c = '.' || Text.isWordStart c then none
    let rest := rest.dropWhile isFigure
    let exponent := if rest.head?.any isExponentMark then afterExponent? (rest.drop 1) else none
    afterDigits? (exponent.getD rest)
  | c :: rest => if isExponentMark c then (afterExponent? rest).bind afterDigits? else none
  | [] => none

/-- What follows an integer in a base, after the mark of the base. -/
def afterBased? (base : Nat) (cs : List Char) : Option (List Char) :=
  let isDigit := fun c => isFigure c || (Text.hexDigit? c).any (· < base)
  let digits := (cs.takeWhile isDigit).filter (· ≠ '_')
  if digits.isEmpty ∨ digits.any fun c => (Text.hexDigit? c).any (· ≥ base) then none
  else afterDigits? (cs.dropWhile isDigit)

def afterInteger? : List Char → Option (List Char)
  | '0' :: 'x' :: rest => afterBased? 16 rest
  | '0' :: 'o' :: rest => afterBased? 8 rest
  | '0' :: 'b' :: rest => afterBased? 2 rest
  | '_' :: _ => none
  | cs => afterBased? 10 cs

/-! ### Literals -/

/-- What follows a text or a character, if one stands at the front. -/
def afterQuoted? : List Char → Option (List Char)
  | '"' :: rest => afterText? textSpelling (rest.length + 1) rest
  | 'b' :: '"' :: rest => afterText? byteSpelling (rest.length + 1) rest
  | 'c' :: '"' :: rest => afterText? terminatedSpelling (rest.length + 1) rest
  | 'r' :: rest => afterRaw? textSpelling rest
  | 'b' :: 'r' :: rest => afterRaw? byteSpelling rest
  | 'c' :: 'r' :: rest => afterRaw? terminatedSpelling rest
  | '\'' :: rest => afterChar? textSpelling rest
  | 'b' :: '\'' :: rest => afterChar? byteSpelling rest
  | _ => none

/-- What follows the literal at the front. -/
def after? (cs : List Char) : Option (List Char) :=
  afterQuoted? cs <|> afterFloat? cs <|> afterInteger? cs

end StagedMapping.Generated.Literal
