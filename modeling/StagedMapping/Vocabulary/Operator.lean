import StagedMapping.Vocabulary.Entry

/-! Operators of the mapping language, with how tightly they bind (a higher precedence
binds tighter) and how they associate when chained. -/
namespace StagedMapping

inductive Operator where
  | plus
  | minus
  | star
  | slash
  | percent
  | eqEq
  | notEq
  | lt
  | ltEq
  | gt
  | gtEq
  | eq
  | and
  | or
  | not
  deriving DecidableEq, Repr

namespace Operator

inductive Associativity where
  | left
  | right
  | none
  deriving DecidableEq, Repr

/-- Written between its operands or before its only one. -/
inductive Fixity where
  | between
  | before
  deriving DecidableEq, Repr

/-- Every operator, in the order of the listing. -/
def all : List Operator :=
  [.plus, .minus, .star, .slash, .percent, .eqEq, .notEq, .lt, .ltEq, .gt, .gtEq, .eq, .and, .or,
    .not]

theorem mem_all (o : Operator) : o ∈ all := by cases o <;> decide

def spelling : Operator → String
  | plus => "+"
  | minus => "-"
  | star => "*"
  | slash => "/"
  | percent => "%"
  | eqEq => "=="
  | notEq => "!="
  | lt => "<"
  | ltEq => "<="
  | gt => ">"
  | gtEq => ">="
  | eq => "="
  | and => "and"
  | or => "or"
  | not => "not"

/-- The name shown in listings. -/
def label : Operator → String
  | plus => "Plus"
  | minus => "Minus"
  | star => "Star"
  | slash => "Slash"
  | percent => "Percent"
  | eqEq => "EqEq"
  | notEq => "NotEq"
  | lt => "Lt"
  | ltEq => "LtEq"
  | gt => "Gt"
  | gtEq => "GtEq"
  | eq => "Eq"
  | and => "And"
  | or => "Or"
  | not => "Not"

def precedence : Operator → Nat
  | eq => 10
  | or => 25
  | and => 30
  | not => 35
  | eqEq | notEq | lt | ltEq | gt | gtEq => 40
  | plus | minus => 50
  | star | slash | percent => 60

def associativity : Operator → Associativity
  | eqEq | notEq | lt | ltEq | gt | gtEq => .none
  | eq | not => .right
  | plus | minus | star | slash | percent | and | or => .left

def fixity : Operator → Fixity
  | not => .before
  | _ => .between

/-- Spelled as a reserved word. -/
def isWord : Operator → Bool
  | and | or | not => true
  | _ => false

def Associativity.label : Associativity → String
  | .left => "Left"
  | .right => "Right"
  | .none => "None"

def Fixity.label : Fixity → String
  | .between => "Infix"
  | .before => "Prefix"

def ofSpelling? (s : String) : Option Operator := findSpelling all spelling (fun _ => []) s

theorem ofSpelling?_spelling (o : Operator) : ofSpelling? o.spelling = some o := by
  cases o <;> decide

end Operator
end StagedMapping
