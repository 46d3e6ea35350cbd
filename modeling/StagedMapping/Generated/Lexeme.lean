import StagedMapping.Generated.Literal
import StagedMapping.Text.Blank

/-! Lexemes of generated code, as they are written in names and paths from outside.
`Lexeme.scan?` reads a text as lexemes: blanks, comments and a byte order mark at its start
mean nothing. Comments that document what follows them stand for code, which no name or path
has, so they are refused. -/
namespace StagedMapping.Generated

inductive Lexeme where
  /-- A word, with the mark of raw form if it has one. -/
  | word (text : String)
  /-- The name of a lifetime, with its mark. -/
  | lifetime (text : String)
  | literal (text : String)
  | sign (c : Char)
  /-- A sign that another one follows directly. -/
  | joint (c : Char)
  /-- An opening or a closing bracket. -/
  | bracket (c : Char)
  deriving DecidableEq, Repr

namespace Lexeme

def text : Lexeme → String
  | word text | lifetime text | literal text => text
  | sign c | joint c | bracket c => String.singleton c

/-! ### Blanks and comments -/

/-- White space, or a mark of direction. -/
def isBlank (c : Char) : Bool :=
  Text.isBlank c || c = '\u200e' || c = '\u200f'

/-- What follows a comment inside so many open ones. -/
def afterComment? (depth : Nat) : List Char → Option (List Char)
  | '/' :: '*' :: rest => afterComment? (depth + 1) rest
  | '*' :: '/' :: rest => if depth ≤ 1 then some rest else afterComment? (depth - 1) rest
  | _ :: rest => afterComment? depth rest
  | [] => none

/-- What is in front documents what follows it. -/
def documents : List Char → Bool
  | '/' :: '/' :: '!' :: _ => true
  | '/' :: '/' :: '/' :: rest => rest.head? ≠ some '/'
  | '/' :: '*' :: '!' :: _ => true
  | '/' :: '*' :: '*' :: rest => rest.head? ≠ some '*' && rest.head? ≠ some '/'
  | _ => false

/-- What follows the comment at the front, if there is one. -/
def pastComment? (cs : List Char) : Option (List Char) :=
  if documents cs then none
  else
    match cs with
    | '/' :: '/' :: rest => some (rest.dropWhile (· ≠ '\n'))
    | '/' :: '*' :: rest => afterComment? 1 rest
    | _ => none

/-! ### Words and signs -/

def isSign (c : Char) : Bool := "~!@#$%^&*-=+|;:,<.>/?".toList.contains c

/-- A sign stands at the front, or the mark of a lifetime, and no comment. -/
def startsSign : List Char → Bool
  | '/' :: '/' :: _ | '/' :: '*' :: _ => false
  | c :: _ => isSign c || c = '\''
  | [] => false

/-- The word at the front, as it is written, and what follows it. -/
def word? : List Char → Option (String × List Char)
  | 'r' :: '#' :: rest =>
    match Text.splitWord rest with
    | some (w, rest) =>
      if ["_", "self", "Self", "super", "crate"].contains (String.ofList w) then none
      else some ("r#" ++ String.ofList w, rest)
    | none => none
  | cs => (Text.splitWord cs).map fun (w, rest) => (String.ofList w, rest)

/-- What starts like this is a literal or nothing. -/
def startsLiteral (cs : List Char) : Bool :=
  ["r\"", "r#\"", "r##", "b\"", "b'", "br\"", "br#", "c\"", "cr\"", "cr#"].any fun s =>
    s.toList.isPrefixOf cs

/-- The lifetime after its mark. -/
def lifetime? (cs : List Char) : Option (Lexeme × List Char) := do
  let (name, rest) ← word? cs
  if rest.head? = some '\'' ∨ (rest.head? = some '#' ∧ !"r#".toList.isPrefixOf cs) then none
  else some (.lifetime ("'" ++ name), rest)

/-- The lexeme at the front, after blanks and comments, and what follows it. -/
def next? (cs : List Char) : Option (Lexeme × List Char) :=
  match Literal.after? cs with
  | some rest => some (.literal (String.ofList (cs.take (cs.length - rest.length))), rest)
  | none =>
    match cs with
    | '\'' :: rest => lifetime? rest
    | c :: rest =>
      if "()[]\x7b\x7d".toList.contains c then some (.bracket c, rest)
      else if startsSign cs then some (if startsSign rest then .joint c else .sign c, rest)
      else if startsLiteral cs then none
      else (word? cs).map fun (w, rest) => (.word w, rest)
    | [] => none

/-! ### Scanning -/

/-- The lexemes of a text of less than `fuel` characters. -/
def scanFrom? : Nat → List Char → Option (List Lexeme)
  | 0, _ => none
  | _, [] => some []
  | fuel + 1, c :: rest =>
    if isBlank c then scanFrom? fuel rest
    else
      match pastComment? (c :: rest) with
      | some rest => scanFrom? fuel rest
      | none => do
        let (first, rest) ← next? (c :: rest)
        return first :: (← scanFrom? fuel rest)

/-- The text as lexemes. -/
def scan? (text : String) : Option (List Lexeme) :=
  let cs := if text.toList.head? = some '\ufeff' then text.toList.drop 1 else text.toList
  scanFrom? (cs.length + 1) cs

end Lexeme
end StagedMapping.Generated
