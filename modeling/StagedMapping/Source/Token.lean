import StagedMapping.Source.Span
import StagedMapping.Vocabulary.Keyword
import StagedMapping.Vocabulary.Operator
import StagedMapping.Vocabulary.Punctuation

/-! Tokens of the mapping language. Blocks are indented, so the layout is part of the
tokens: a line break ends a logical line, and an indent and a dedent enclose a block. -/
namespace StagedMapping

/-- What a token is. -/
inductive TokenKind where
  | keyword (k : Keyword)
  | operator (o : Operator)
  | punctuation (p : Punctuation)
  | ident (name : String)
  | int (value : Int64)
  | float (value : Float)
  | string (text : String)
  | newline
  | indent
  | dedent
  | eof
  deriving Repr

namespace TokenKind

/-- Only shapes blocks. -/
def isLayout : TokenKind → Bool
  | newline | indent | dedent => true
  | _ => false

def isKeyword : TokenKind → Bool
  | keyword _ => true
  | _ => false

def isIdent : TokenKind → Bool
  | ident _ => true
  | _ => false

def isString : TokenKind → Bool
  | string _ => true
  | _ => false

def isNewline : TokenKind → Bool
  | newline => true
  | _ => false

def isIndent : TokenKind → Bool
  | indent => true
  | _ => false

def isDedent : TokenKind → Bool
  | dedent => true
  | _ => false

def isEof : TokenKind → Bool
  | eof => true
  | _ => false

/-- Is the given reserved word. -/
def isWord (k : Keyword) : TokenKind → Bool
  | keyword l => l = k
  | _ => false

/-- Is the given operator. -/
def isOperator (o : Operator) : TokenKind → Bool
  | operator p => p = o
  | _ => false

/-- Is the given punctuation mark. -/
def isMark (p : Punctuation) : TokenKind → Bool
  | punctuation q => q = p
  | _ => false

/-- A short description for messages. -/
def describe : TokenKind → String
  | keyword k => s!"keyword '{k.spelling}'"
  | operator o => s!"'{o.spelling}'"
  | punctuation p => s!"'{p.spelling}'"
  | ident name => s!"identifier '{name}'"
  | int _ | float _ => "number"
  | string _ => "string"
  | newline => "newline"
  | indent => "indent"
  | dedent => "dedent"
  | eof => "end of file"

end TokenKind

/-- A token and where it stands. -/
structure Token where
  kind : TokenKind
  span : Span
  deriving Repr

end StagedMapping
