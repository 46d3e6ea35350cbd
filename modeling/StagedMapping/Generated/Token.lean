import StagedMapping.Number.FloatText
import StagedMapping.Text.Alphanumeric
import StagedMapping.Text.Quoted

/-! Tokens of generated code, and code without layout: `render` writes tokens one after the
other, with a blank only between two words. -/
namespace StagedMapping.Generated

inductive Token where
  /-- A word or a sign. -/
  | symbol (text : String)
  | string (value : String)
  | natural (n : Nat)
  /-- A double without its sign. -/
  | float (size : Float)
  deriving Repr

abbrev Code := List Token

namespace Token

def isOctalDigit (c : Char) : Bool := '0' ≤ c && c ≤ '7'

/-- The characters of a text inside quotes. A zero character before an octal digit is
written in hexadecimal, so that the two do not read as one escape. -/
def escaped : List Char → List Char
  | [] => []
  | c :: rest =>
    if c.toNat = 0 ∧ rest.head?.any isOctalDigit then ['\\', 'x', '0', '0'] ++ escaped rest
    else Text.escapeChar c ++ escaped rest

def text : Token → String
  | symbol text => text
  | string value => String.ofList ('"' :: escaped value.toList ++ ['"'])
  | natural n => toString n
  | float size => String.ofList (Number.plainSize size) ++ "f64"

end Token

/-! ### Rendering -/

/-- Two such characters need a blank between them. -/
def isWordlike (c : Char) : Bool := Text.isAlphanumeric c || c == '_'

def startsWordlike (s : String) : Bool := s.toList.head?.any isWordlike

def endsWordlike (s : String) : Bool := s.toList.getLast?.any isWordlike

/-- The texts with blanks between words, after a text that may end with a word. -/
def separated (afterWord : Bool) : List String → List String
  | [] => []
  | s :: rest =>
    let more := s :: separated (endsWordlike s) rest
    if afterWord && startsWordlike s then " " :: more else more

/-- Code without layout. -/
def render (code : Code) : String := String.join (separated false (code.map Token.text))

/-! ### Building code -/

/-- The parts between the blanks, with `current` the reversed start of the first one. -/
def splitBlanks (current : List Char) : List Char → List (List Char)
  | [] => [current.reverse]
  | c :: rest =>
    if c = ' ' then current.reverse :: splitBlanks [] rest else splitBlanks (c :: current) rest

/-- Symbols, written with one blank between them. -/
def code (text : String) : Code :=
  (splitBlanks [] text.toList).map fun s => .symbol (String.ofList s)

/-- Parts with commas between them. -/
def commas : List Code → Code
  | [] => []
  | [part] => part
  | part :: rest => part ++ .symbol "," :: commas rest

def parens (inner : Code) : Code := .symbol "(" :: inner ++ [.symbol ")"]

def braces (inner : Code) : Code := .symbol "\x7b" :: inner ++ [.symbol "\x7d"]

def angles (args : List Code) : Code := .symbol "<" :: commas args ++ [.symbol ">"]

def call (head : Code) (args : List Code) : Code := head ++ parens (commas args)

/-- A call of a method. -/
def send (receiver : Code) (method : String) (args : List Code) : Code :=
  receiver ++ .symbol "." :: call [.symbol method] args

/-- A path that starts with a separator. -/
def absolute (path : List String) : Code := path.flatMap fun s => [.symbol "::", .symbol s]

/-- A path into the runtime library. -/
def runtime (path : List String) : Code := absolute ("mapforge_runtime" :: path)

/-- An owned text. -/
def owned (s : String) : Code := send [.string s] "to_string" []

def sequence (items : List Code) : Code :=
  [.symbol "vec", .symbol "!", .symbol "["] ++ commas items ++ [.symbol "]"]

def optional : Option Code → Code
  | none => [.symbol "None"]
  | some inner => call [.symbol "Some"] [inner]

/-- A value with named fields. -/
def withFields (head : Code) (fields : List (String × Code)) : Code :=
  head ++ braces (commas (fields.map fun (name, value) => .symbol name :: .symbol ":" :: value))

end StagedMapping.Generated
