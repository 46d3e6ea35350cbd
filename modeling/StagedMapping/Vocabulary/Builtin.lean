import StagedMapping.Vocabulary.Entry

/-! Builtin methods: the closed set of methods that an expression tree can call. -/
namespace StagedMapping

inductive Builtin where
  | upper
  | lower
  | trim
  | len
  | contains
  | startsWith
  | endsWith
  | replace
  | toStr
  | abs
  deriving DecidableEq, Repr

namespace Builtin

/-- The receivers a method accepts. -/
inductive Receiver where
  | str
  | number
  | any
  deriving DecidableEq, Repr

/-- What a method returns, as far as type inference needs it. -/
inductive Returns where
  | str
  | int
  | bool
  | receiver
  deriving DecidableEq, Repr

/-- Every method, in the order of the listing. -/
def all : List Builtin :=
  [.upper, .lower, .trim, .len, .contains, .startsWith, .endsWith, .replace, .toStr, .abs]

theorem mem_all (b : Builtin) : b ∈ all := by cases b <;> decide

/-- The canonical spelling. -/
def spelling : Builtin → String
  | upper => "upper"
  | lower => "lower"
  | trim => "trim"
  | len => "len"
  | contains => "contains"
  | startsWith => "starts_with"
  | endsWith => "ends_with"
  | replace => "replace"
  | toStr => "to_str"
  | abs => "abs"

/-- Further spellings with the same meaning. -/
def aliases : Builtin → List String
  | upper => ["to_upper"]
  | lower => ["to_lower"]
  | trim => ["strip"]
  | startsWith => ["startswith"]
  | endsWith => ["endswith"]
  | toStr => ["str", "to_string"]
  | _ => []

/-- The name shown in listings and in generated code. -/
def label : Builtin → String
  | upper => "Upper"
  | lower => "Lower"
  | trim => "Trim"
  | len => "Len"
  | contains => "Contains"
  | startsWith => "StartsWith"
  | endsWith => "EndsWith"
  | replace => "Replace"
  | toStr => "ToStr"
  | abs => "Abs"

def description : Builtin → String
  | upper => "Uppercase a string."
  | lower => "Lowercase a string."
  | trim => "Strip leading and trailing whitespace."
  | len => "Length of a string in Unicode scalar values."
  | contains => "Substring test."
  | startsWith => "Prefix test."
  | endsWith => "Suffix test."
  | replace => "Replace every occurrence of the first argument with the second."
  | toStr => "Render any value as a string."
  | abs => "Absolute value of a number."

/-- Number of arguments after the receiver. -/
def arity : Builtin → Nat
  | contains | startsWith | endsWith => 1
  | replace => 2
  | _ => 0

def receiver : Builtin → Receiver
  | toStr => .any
  | abs => .number
  | _ => .str

def returns : Builtin → Returns
  | upper | lower | trim | replace | toStr => .str
  | len => .int
  | contains | startsWith | endsWith => .bool
  | abs => .receiver

def Receiver.label : Receiver → String
  | .str => "Str"
  | .number => "Number"
  | .any => "Any"

def Returns.label : Returns → String
  | .str => "Str"
  | .int => "Int"
  | .bool => "Bool"
  | .receiver => "Receiver"

def ofSpelling? (s : String) : Option Builtin := findSpelling all spelling aliases s

theorem ofSpelling?_spelling (b : Builtin) : ofSpelling? b.spelling = some b := by
  cases b <;> decide

end Builtin
end StagedMapping
