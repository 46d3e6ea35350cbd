import StagedMapping.Vocabulary.Operator

/-! The operations of expressions, with their two spellings: the one a source is written
in, and the symbol that the text of an expression tree shows. -/
namespace StagedMapping

inductive BinaryOp where
  | add
  | sub
  | mul
  | div
  | mod
  | eq
  | notEq
  | lt
  | ltEq
  | gt
  | gtEq
  | and
  | or
  deriving DecidableEq, Repr

namespace BinaryOp

def all : List BinaryOp :=
  [.add, .sub, .mul, .div, .mod, .eq, .notEq, .lt, .ltEq, .gt, .gtEq, .and, .or]

theorem mem_all (op : BinaryOp) : op ∈ all := by cases op <;> decide

/-- The entry of the vocabulary that writes the operation. -/
def operator : BinaryOp → Operator
  | add => .plus
  | sub => .minus
  | mul => .star
  | div => .slash
  | mod => .percent
  | eq => .eqEq
  | notEq => .notEq
  | lt => .lt
  | ltEq => .ltEq
  | gt => .gt
  | gtEq => .gtEq
  | and => .and
  | or => .or

/-- As a source writes it. -/
def spelling (op : BinaryOp) : String := op.operator.spelling

/-- As the text of a tree shows it. -/
def symbol : BinaryOp → String
  | and => "&&"
  | or => "||"
  | op => op.spelling

/-- The name that generated code uses. -/
def label : BinaryOp → String
  | add => "Add"
  | sub => "Sub"
  | mul => "Mul"
  | div => "Div"
  | mod => "Mod"
  | eq => "Eq"
  | notEq => "NotEq"
  | lt => "Lt"
  | ltEq => "LtEq"
  | gt => "Gt"
  | gtEq => "GtEq"
  | and => "And"
  | or => "Or"

/-- Comparisons and connectives yield a truth value, whatever their operands. -/
def isBoolean : BinaryOp → Bool
  | eq | notEq | lt | ltEq | gt | gtEq | and | or => true
  | add | sub | mul | div | mod => false

end BinaryOp

inductive UnaryOp where
  | neg
  | not
  deriving DecidableEq, Repr

namespace UnaryOp

/-- As a source writes it, with the blank that separates a word from its operand. -/
def spelling : UnaryOp → String
  | neg => "-"
  | not => "not "

/-- As the text of a tree shows it. -/
def symbol : UnaryOp → String
  | neg => "-"
  | not => "!"

/-- The name that generated code uses. -/
def label : UnaryOp → String
  | neg => "Neg"
  | not => "Not"

end UnaryOp
end StagedMapping
