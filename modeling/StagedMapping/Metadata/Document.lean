import StagedMapping.Text.Digit

/-! JSON documents. Reading checks the grammar and keeps what metadata needs: a number is
only noted, and a text may be no text at all, because an escape in it names half of a
surrogate pair (`Document.text none`). Members of an object keep their order and may repeat
a name. -/
namespace StagedMapping

inductive Document where
  | null
  | bool (b : Bool)
  | number
  | text (s : Option String)
  | array (items : List Document)
  | object (members : List (Option String × Document))
  deriving Repr

namespace Document

/-- Something read from the start of a text, and the shorter text after it. -/
structure Part (α : Type) (cs : List Char) where
  value : α
  rest : List Char
  lt : rest.length < cs.length

theorem Part.le_succ {α : Type} {cs : List Char} (p : Part α cs) :
    p.rest.length ≤ cs.length + 1 := Nat.le_succ_of_le (Nat.le_of_lt p.lt)

/-! ### Blanks -/

def isSpace (c : Char) : Bool := c = ' ' || c = '\n' || c = '\t' || c = '\r'

def skip (cs : List Char) : List Char := cs.dropWhile isSpace

theorem skip_length_le (cs : List Char) : (skip cs).length ≤ cs.length :=
  (List.dropWhile_sublist _).length_le

/-! ### Texts -/

/-- A character of a text, or one unit of a surrogate pair. -/
inductive Piece where
  | char (c : Char)
  | half (unit : Nat)
  deriving Repr

/-- The unit that four digits name. -/
def unit? (a b c d : Char) : Option Nat := do
  let high := (← Text.hexDigit? a) * 16 + (← Text.hexDigit? b)
  return high * 256 + (← Text.hexDigit? c) * 16 + (← Text.hexDigit? d)

def pieceOfUnit (n : Nat) : Piece :=
  if 0xD800 ≤ n ∧ n < 0xE000 then .half n else .char (Char.ofNat n)

/-- The character a short escape stands for. -/
def escaped? : Char → Option Char
  | '"' => some '"'
  | '\\' => some '\\'
  | '/' => some '/'
  | 'b' => some '\x08'
  | 'f' => some '\x0c'
  | 'n' => some '\n'
  | 'r' => some '\r'
  | 't' => some '\t'
  | _ => none

/-- The pieces of a text up to its closing quote. -/
def readPieces : (cs : List Char) → Option (Part (List Piece) cs)
  | [] => none
  | '"' :: rest => some ⟨[], rest, by simp⟩
  | '\\' :: 'u' :: a :: b :: c :: d :: rest => do
    let n ← unit? a b c d
    let more ← readPieces rest
    return ⟨pieceOfUnit n :: more.value, more.rest, by have := more.lt; simp; omega⟩
  | '\\' :: e :: rest => do
    let c ← escaped? e
    let more ← readPieces rest
    return ⟨.char c :: more.value, more.rest, by have := more.lt; simp; omega⟩
  | c :: rest => do
    if c = '\\' ∨ c.toNat < 0x20 then none
    let more ← readPieces rest
    return ⟨.char c :: more.value, more.rest, by have := more.lt; simp; omega⟩

/-- Pieces as characters, if every half has its other half. -/
def join? : List Piece → Option (List Char)
  | [] => some []
  | .char c :: rest => (join? rest).map (c :: ·)
  | .half a :: .half b :: rest =>
    if a < 0xDC00 ∧ 0xDC00 ≤ b then
      (join? rest).map (Char.ofNat (0x10000 + (a - 0xD800) * 0x400 + (b - 0xDC00)) :: ·)
    else none
  | .half _ :: _ => none

/-- A text after its opening quote. -/
def readText (cs : List Char) : Option (Part (Option String) cs) :=
  (readPieces cs).map fun p => ⟨(join? p.value).map String.ofList, p.rest, p.lt⟩

/-! ### Numbers -/

/-- What follows one or more digits. -/
def readDigits (cs : List Char) : Option (Part Unit cs) :=
  match cs with
  | [] => none
  | c :: rest =>
    if c.isDigit then
      some ⟨(), rest.dropWhile Char.isDigit,
        Nat.lt_succ_of_le (List.dropWhile_sublist _).length_le⟩
    else none

/-- What follows digits that do not start with a superfluous zero. -/
def readInteger (cs : List Char) : Option (Part Unit cs) :=
  match cs with
  | '0' :: rest => if (rest.head?.any Char.isDigit) then none else some ⟨(), rest, by simp⟩
  | cs => readDigits cs

/-- What follows an optional fraction. -/
def readFraction (cs : List Char) : Option { r : List Char // r.length ≤ cs.length } :=
  match cs with
  | '.' :: rest => (readDigits rest).map fun p => ⟨p.rest, p.le_succ⟩
  | cs => some ⟨cs, Nat.le_refl _⟩

def isExponentMark (c : Char) : Bool := c = 'e' || c = 'E'

def isSign (c : Char) : Bool := c = '+' || c = '-'

/-- What follows an optional sign. -/
def dropSign (cs : List Char) : List Char :=
  match cs with
  | c :: rest => if isSign c then rest else cs
  | [] => []

theorem dropSign_length_le (cs : List Char) : (dropSign cs).length ≤ cs.length := by
  unfold dropSign
  split
  · split <;> simp
  · simp

/-- What follows an optional exponent. -/
def readExponent (cs : List Char) : Option { r : List Char // r.length ≤ cs.length } :=
  match cs with
  | [] => some ⟨[], Nat.le_refl _⟩
  | c :: rest =>
    if isExponentMark c then
      (readDigits (dropSign rest)).map fun p =>
        ⟨p.rest, by have := p.lt; have := dropSign_length_le rest; simp; omega⟩
    else some ⟨c :: rest, Nat.le_refl _⟩

/-- What follows a number without a sign. -/
def readUnsigned (cs : List Char) : Option (Part Unit cs) := do
  let whole ← readInteger cs
  let fraction ← readFraction whole.rest
  let exponent ← readExponent fraction.1
  return ⟨(), exponent.1,
    Nat.lt_of_le_of_lt (Nat.le_trans exponent.2 fraction.2) whole.lt⟩

def readNumber (cs : List Char) : Option (Part Unit cs) :=
  match cs with
  | '-' :: rest => (readUnsigned rest).map fun p => ⟨(), p.rest, by have := p.lt; simp; omega⟩
  | cs => readUnsigned cs

/-! ### Documents -/

/-- A word that starts the text. -/
def readWord (d : Document) (word : List Char) (cs : List Char) : Option (Part Document cs) :=
  match word with
  | [] => none
  | w :: ws =>
    match cs with
    | [] => none
    | c :: rest =>
      if c = w ∧ ws.isPrefixOf rest then
        some ⟨d, rest.drop ws.length, by simp only [List.length_drop, List.length_cons]; omega⟩
      else none

/-- A word or a number. -/
def readScalar (cs : List Char) : Option (Part Document cs) :=
  readWord (.bool true) ['t', 'r', 'u', 'e'] cs <|>
    readWord (.bool false) ['f', 'a', 'l', 's', 'e'] cs <|>
    readWord .null ['n', 'u', 'l', 'l'] cs <|>
    (readNumber cs).map fun p => ⟨.number, p.rest, p.lt⟩

mutual

/-- A document at the start of a text. -/
def readValue (cs : List Char) : Option (Part Document cs) :=
  match cs with
  | [] => none
  | '"' :: rest => (readText rest).map fun p =>
      ⟨.text p.value, p.rest, by have := p.lt; simp; omega⟩
  | '[' :: rest => do
    have hs := skip_length_le rest
    match h : skip rest with
    | ']' :: after =>
      return ⟨.array [], after, by rw [h] at hs; simp at hs ⊢; omega⟩
    | _ =>
      let p ← readItems (skip rest)
      return ⟨.array p.value, p.rest, by have := p.lt; simp; omega⟩
  | '\x7b' :: rest => do
    have hs := skip_length_le rest
    match h : skip rest with
    | '\x7d' :: after =>
      return ⟨.object [], after, by rw [h] at hs; simp at hs ⊢; omega⟩
    | _ =>
      let p ← readMembers (skip rest)
      return ⟨.object p.value, p.rest, by have := p.lt; simp; omega⟩
  | cs => readScalar cs
termination_by 2 * cs.length
decreasing_by all_goals (simp; omega)

/-- Items separated by commas, up to the bracket that closes them. -/
def readItems (cs : List Char) : Option (Part (List Document) cs) := do
  let first ← readValue cs
  have := first.lt
  have := skip_length_le first.rest
  match h : skip first.rest with
  | ']' :: after => return ⟨[first.value], after, by simp_all; omega⟩
  | ',' :: after =>
    have := skip_length_le after
    let more ← readItems (skip after)
    return ⟨first.value :: more.value, more.rest, by have := more.lt; simp_all; omega⟩
  | _ => none
termination_by 2 * cs.length + 1
decreasing_by all_goals simp_all; try omega

/-- Members separated by commas, up to the brace that closes them. -/
def readMembers (cs : List Char) : Option (Part (List (Option String × Document)) cs) :=
  match cs with
  | '"' :: rest => do
    let name ← readText rest
    have := name.lt
    have := skip_length_le name.rest
    match h : skip name.rest with
    | ':' :: after =>
      have := skip_length_le after
      let value ← readValue (skip after)
      have := value.lt
      have := skip_length_le value.rest
      match h' : skip value.rest with
      | '\x7d' :: after' => return ⟨[(name.value, value.value)], after', by simp_all; omega⟩
      | ',' :: after' =>
        have := skip_length_le after'
        let more ← readMembers (skip after')
        return ⟨(name.value, value.value) :: more.value, more.rest,
          by have := more.lt; simp_all; omega⟩
      | _ => none
    | _ => none
  | _ => none
termination_by 2 * cs.length
decreasing_by all_goals simp_all; try omega

end

/-- A text that is one document and nothing else. -/
def parse (text : String) : Option Document := do
  let p ← readValue (skip text.toList)
  if (skip p.rest).isEmpty then return p.value else none

end Document
end StagedMapping
