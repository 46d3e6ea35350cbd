import StagedMapping.Vocabulary.Entry

/-! Builtin types. They need no import and live in the empty namespace; `List` and
`Option` take one argument each. -/
namespace StagedMapping

inductive BuiltinType where
  | str
  | int
  | float
  | bool
  | any
  | list
  | option
  deriving DecidableEq, Repr

namespace BuiltinType

/-- Every builtin type, in the order of the listing. -/
def all : List BuiltinType := [.str, .int, .float, .bool, .any, .list, .option]

theorem mem_all (t : BuiltinType) : t ∈ all := by cases t <;> decide

/-- The canonical spelling. -/
def spelling : BuiltinType → String
  | str => "str"
  | int => "int"
  | float => "float"
  | bool => "bool"
  | any => "any"
  | list => "List"
  | option => "Option"

/-- Further spellings with the same meaning. -/
def aliases : BuiltinType → List String
  | str => ["string"]
  | int => ["i64"]
  | float => ["f64"]
  | list => ["list"]
  | _ => []

/-- The name shown in listings. -/
def label : BuiltinType → String
  | str => "Str"
  | int => "Int"
  | float => "Float"
  | bool => "Bool"
  | any => "Any"
  | list => "List"
  | option => "Option"

def description : BuiltinType → String
  | str => "Unicode text."
  | int => "64-bit signed integer."
  | float => "64-bit float."
  | bool => "Boolean."
  | any => "Dynamically typed value; the fallback when inference has nothing better."
  | list => "Ordered sequence."
  | option => "Optional value."

/-- Number of type arguments. -/
def arity : BuiltinType → Nat
  | list | option => 1
  | _ => 0

def isNumeric : BuiltinType → Bool
  | int | float => true
  | _ => false

/-- Snippets for listings, each with an optional note. -/
def examples : BuiltinType → List (String × Option String)
  | list => [("tags: List[str]", none)]
  | option => [("nickname: Option[str]", none)]
  | _ => []

def ofSpelling? (s : String) : Option BuiltinType := findSpelling all spelling aliases s

theorem ofSpelling?_spelling (t : BuiltinType) : ofSpelling? t.spelling = some t := by
  cases t <;> decide

end BuiltinType
end StagedMapping
