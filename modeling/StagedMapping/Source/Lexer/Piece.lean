import StagedMapping.Number.FloatReader
import StagedMapping.Source.Problem
import StagedMapping.Source.Token

/-! Pieces of a line: `pieceAt` reads the longest token, blank or comment at the front of
the text. What it takes and what it leaves over make up the text again, so nothing is lost
(`pieceAt_append`), and it always takes something (`pieceAt_rest_lt`). -/
namespace StagedMapping

/-- What the characters at the front of a text mean. -/
inductive Meaning where
  | token (kind : TokenKind)
  | fault (f : Fault)
  /-- Blanks and comments. -/
  | nothing
  deriving Repr

/-- The front of a text: what it means, the characters it takes and those left over. -/
structure Piece where
  meaning : Meaning
  taken : List Char
  rest : List Char

namespace Lexer

def isIdentStart (c : Char) : Bool := c.isAlpha || c == '_'

def isIdentPart (c : Char) : Bool := c.isAlphanum || c == '_'

/-- Digits may be grouped by underscores. -/
def isDigitPart (c : Char) : Bool := c.isDigit || c == '_'

/-- A reserved word or a name. -/
def wordKind (name : String) : TokenKind :=
  match Keyword.ofSpelling? name with
  | some k => .keyword k
  | none => .ident name

/-- The longest word at the front. -/
def readWord (cs : List Char) : Piece :=
  let taken := cs.takeWhile isIdentPart
  ⟨.token (wordKind (String.ofList taken)), taken, cs.dropWhile isIdentPart⟩

/-- The digits of a group of digits and underscores. -/
def digitsOf (cs : List Char) : List Char := cs.filter Char.isDigit

/-- A point and the digits after it, if a digit follows the point at once: what is taken
and what is left. -/
def readFraction : List Char → List Char × List Char
  | '.' :: d :: rest =>
    if d.isDigit then ('.' :: d :: rest.takeWhile isDigitPart, rest.dropWhile isDigitPart)
    else ([], '.' :: d :: rest)
  | cs => ([], cs)

/-- The letter of an exponent, a sign and digits: what is taken and what is left. -/
def readPower : List Char → List Char × List Char
  | [] => ([], [])
  | e :: rest =>
    if e = 'e' ∨ e = 'E' then
      match rest with
      | [] => ([e], [])
      | s :: more =>
        if s = '+' ∨ s = '-' then (e :: s :: more.takeWhile isDigitPart, more.dropWhile isDigitPart)
        else (e :: rest.takeWhile isDigitPart, rest.dropWhile isDigitPart)
    else ([], e :: rest)

/-- The text of a number without grouping and with a small `e`. -/
def plainNumber (taken : List Char) : List Char :=
  (taken.filter (· ≠ '_')).map fun c => if c = 'E' then 'e' else c

/-- An integer of 64 bits, or the fault of one that does not fit. -/
def integerMeaning (text : List Char) : Meaning :=
  let n := Number.digitsValue text
  if n < Nat.pow 2 63 then .token (.int (Int64.ofNat n))
  else .fault (.invalidInteger (String.ofList text))

def floatMeaning (text : List Char) : Meaning :=
  match Number.readFloat text with
  | some x => .token (.float x)
  | none => .fault (.invalidFloat (String.ofList text))

/-- The number at the front; a fraction or an exponent makes it a float. -/
def readNumber (cs : List Char) : Piece :=
  let whole := cs.takeWhile isDigitPart
  let (fraction, afterFraction) := readFraction (cs.dropWhile isDigitPart)
  let (power, rest) := readPower afterFraction
  let taken := whole ++ fraction ++ power
  let text := plainNumber taken
  ⟨if fraction.isEmpty && power.isEmpty then integerMeaning text else floatMeaning text,
    taken, rest⟩

/-- The text that a backslash and the character after it stand for; a pair that means
nothing stands for itself. -/
def unescape (c : Char) : List Char :=
  if c = 'n' then ['\n']
  else if c = 't' then ['\t']
  else if c = 'r' then ['\r']
  else if c = '\\' then ['\\']
  else if c = '0' then [Char.ofNat 0]
  else if c = '"' ∨ c = '\'' then [c]
  else ['\\', c]

/-- The rest of a string after its opening quote: its text, or `none` if the line ends
first, then the characters taken and those left. -/
def readQuoted (quote : Char) : List Char → Option (List Char) × List Char × List Char
  | [] => (none, [], [])
  | '\\' :: [] => (none, ['\\'], [])
  | c :: d :: rest =>
    if c = '\n' then (none, [], c :: d :: rest)
    else if c = quote then (some [], [c], d :: rest)
    else if c = '\\' then
      let (text, taken, left) := readQuoted quote rest
      (text.map (unescape d ++ ·), c :: d :: taken, left)
    else
      let (text, taken, left) := readQuoted quote (d :: rest)
      (text.map (c :: ·), c :: taken, left)
  | [c] =>
    if c = '\n' then (none, [], [c])
    else if c = quote then (some [], [c], [])
    else (none, [c], [])

/-- The string that an opening quote starts. -/
def readString (quote : Char) (rest : List Char) : Piece :=
  match readQuoted quote rest with
  | (some text, taken, left) => ⟨.token (.string (String.ofList text)), quote :: taken, left⟩
  | (none, taken, left) => ⟨.fault .unterminatedString, quote :: taken, left⟩

/-- One character that is a token by itself. -/
def single? (c : Char) : Option TokenKind :=
  match c with
  | '+' => some (.operator .plus)
  | '-' => some (.operator .minus)
  | '*' => some (.operator .star)
  | '/' => some (.operator .slash)
  | '%' => some (.operator .percent)
  | '=' => some (.operator .eq)
  | '<' => some (.operator .lt)
  | '>' => some (.operator .gt)
  | '@' => some (.punctuation .at)
  | ',' => some (.punctuation .comma)
  | '(' => some (.punctuation .leftParen)
  | ')' => some (.punctuation .rightParen)
  | '[' => some (.punctuation .leftBracket)
  | ']' => some (.punctuation .rightBracket)
  | ':' => some (.punctuation .colon)
  | '.' => some (.punctuation .dot)
  | _ => none

/-- Two characters that are one token. -/
def double? (c d : Char) : Option TokenKind :=
  match c, d with
  | '-', '>' => some (.punctuation .arrow)
  | ':', ':' => some (.punctuation .colonColon)
  | '=', '=' => some (.operator .eqEq)
  | '!', '=' => some (.operator .notEq)
  | '<', '=' => some (.operator .ltEq)
  | '>', '=' => some (.operator .gtEq)
  | _, _ => none

/-- The longest symbol at the front. -/
def readSymbol (c : Char) (rest : List Char) : Piece :=
  match c, rest with
  | '.', '.' :: '.' :: more => ⟨.token (.punctuation .ellipsis), ['.', '.', '.'], more⟩
  | c, d :: more =>
    match double? c d with
    | some kind => ⟨.token kind, [c, d], more⟩
    | none => readOne c (d :: more)
  | c, [] => readOne c []
where
  /-- A symbol of one character, or a character that starts nothing. -/
  readOne (c : Char) (rest : List Char) : Piece :=
    match single? c with
    | some kind => ⟨.token kind, [c], rest⟩
    | none => ⟨.fault (.unexpectedCharacter c), [c], rest⟩

/-- The piece that starts with `c`, which is not a line feed. -/
def pieceAt (c : Char) (rest : List Char) : Piece :=
  if c = ' ' ∨ c = '\t' ∨ c = '\r' then ⟨.nothing, [c], rest⟩
  else if c = '#' then ⟨.nothing, c :: rest.takeWhile (· ≠ '\n'), rest.dropWhile (· ≠ '\n')⟩
  else if c = '"' ∨ c = '\'' then readString c rest
  else if c.isDigit then readNumber (c :: rest)
  else if isIdentStart c then readWord (c :: rest)
  else readSymbol c rest

/-! ### Nothing is lost and something is taken -/

theorem readFraction_append (cs : List Char) : (readFraction cs).1 ++ (readFraction cs).2 = cs := by
  unfold readFraction
  split
  · split <;> simp [List.takeWhile_append_dropWhile]
  · simp

theorem readPower_append (cs : List Char) : (readPower cs).1 ++ (readPower cs).2 = cs := by
  unfold readPower
  repeat' split
  all_goals simp [List.takeWhile_append_dropWhile]

theorem readNumber_append (cs : List Char) :
    (readNumber cs).taken ++ (readNumber cs).rest = cs := by
  simp only [readNumber]
  rw [List.append_assoc, readPower_append, List.append_assoc, readFraction_append,
    List.takeWhile_append_dropWhile]

theorem readQuoted_append (quote : Char) (cs : List Char) :
    (readQuoted quote cs).2.1 ++ (readQuoted quote cs).2.2 = cs := by
  fun_induction readQuoted quote cs <;> simp_all

theorem readString_append (quote : Char) (rest : List Char) :
    (readString quote rest).taken ++ (readString quote rest).rest = quote :: rest := by
  have h := readQuoted_append quote rest
  unfold readString
  split <;> simp_all

theorem readOne_append (c : Char) (rest : List Char) :
    (readSymbol.readOne c rest).taken ++ (readSymbol.readOne c rest).rest = c :: rest := by
  unfold readSymbol.readOne
  split <;> simp

theorem readSymbol_append (c : Char) (rest : List Char) :
    (readSymbol c rest).taken ++ (readSymbol c rest).rest = c :: rest := by
  unfold readSymbol
  split
  · simp
  · split
    · simp
    · exact readOne_append ..
  · exact readOne_append ..

theorem pieceAt_append (c : Char) (rest : List Char) :
    (pieceAt c rest).taken ++ (pieceAt c rest).rest = c :: rest := by
  unfold pieceAt
  split
  · simp
  split
  · simp [List.takeWhile_append_dropWhile]
  split
  · exact readString_append ..
  split
  · exact readNumber_append _
  split
  · simp [readWord, List.takeWhile_append_dropWhile]
  · exact readSymbol_append ..

theorem readSymbol_taken_ne_nil (c : Char) (rest : List Char) : (readSymbol c rest).taken ≠ [] := by
  unfold readSymbol readSymbol.readOne
  repeat' split
  all_goals simp

theorem readString_taken_ne_nil (quote : Char) (rest : List Char) :
    (readString quote rest).taken ≠ [] := by
  unfold readString
  split <;> simp

theorem pieceAt_taken_ne_nil (c : Char) (rest : List Char) : (pieceAt c rest).taken ≠ [] := by
  unfold pieceAt
  split
  · simp
  split
  · simp
  split
  · exact readString_taken_ne_nil c rest
  split
  · rename_i h
    simp [readNumber, isDigitPart, h]
  split
  · rename_i h
    have part : isIdentPart c = true := by
      simp only [isIdentStart, isIdentPart, Char.isAlphanum, Bool.or_eq_true] at h ⊢
      exact h.imp_left .inl
    simp [readWord, part]
  · exact readSymbol_taken_ne_nil c rest

theorem pieceAt_rest_lt (c : Char) (rest : List Char) :
    (pieceAt c rest).rest.length < (c :: rest).length := by
  have whole := congrArg List.length (pieceAt_append c rest)
  have taken := List.length_pos_iff.2 (pieceAt_taken_ne_nil c rest)
  simp only [List.length_append] at whole
  omega

end Lexer
end StagedMapping
