import StagedMapping.Vocabulary.Entry

/-! Punctuation of the mapping language. -/
namespace StagedMapping

inductive Punctuation where
  | comma
  | colon
  | at
  | dot
  | colonColon
  | arrow
  | ellipsis
  | leftParen
  | rightParen
  | leftBracket
  | rightBracket
  deriving DecidableEq, Repr

namespace Punctuation

inductive Category where
  | delimiter
  | separator
  | access
  | arrow
  | marker
  deriving DecidableEq, Repr

/-- Every mark, in the order of the listing. -/
def all : List Punctuation :=
  [.comma, .colon, .at, .dot, .colonColon, .arrow, .ellipsis, .leftParen, .rightParen, .leftBracket,
    .rightBracket]

theorem mem_all (p : Punctuation) : p ∈ all := by cases p <;> decide

def spelling : Punctuation → String
  | comma => ","
  | colon => ":"
  | .at => "@"
  | dot => "."
  | colonColon => "::"
  | arrow => "->"
  | ellipsis => "..."
  | leftParen => "("
  | rightParen => ")"
  | leftBracket => "["
  | rightBracket => "]"

/-- The name shown in listings. -/
def label : Punctuation → String
  | comma => "Comma"
  | colon => "Colon"
  | .at => "At"
  | dot => "Dot"
  | colonColon => "ColonColon"
  | arrow => "Arrow"
  | ellipsis => "Ellipsis"
  | leftParen => "LParen"
  | rightParen => "RParen"
  | leftBracket => "LBracket"
  | rightBracket => "RBracket"

def category : Punctuation → Category
  | comma | colon => .separator
  | .at | ellipsis => .marker
  | dot | colonColon => .access
  | arrow => .arrow
  | leftParen | rightParen | leftBracket | rightBracket => .delimiter

def Category.label : Category → String
  | .delimiter => "Delimiter"
  | .separator => "Separator"
  | .access => "Access"
  | .arrow => "Arrow"
  | .marker => "Marker"

def ofSpelling? (s : String) : Option Punctuation := findSpelling all spelling (fun _ => []) s

theorem ofSpelling?_spelling (p : Punctuation) : ofSpelling? p.spelling = some p := by
  cases p <;> decide

end Punctuation
end StagedMapping
