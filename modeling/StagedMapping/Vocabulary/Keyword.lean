import StagedMapping.Vocabulary.Entry

/-! Reserved words of the mapping language. Some have a second spelling, and the three
word operators are reserved words too. -/
namespace StagedMapping

inductive Keyword where
  | ifWord
  | elifWord
  | elseWord
  | whileWord
  | returnWord
  | passWord
  | namespaceWord
  | importWord
  | asWord
  | classWord
  | defWord
  | letWord
  | newWord
  | readonlyWord
  | writeonlyWord
  | trueWord
  | falseWord
  | noneWord
  | andWord
  | orWord
  | notWord
  deriving DecidableEq, Repr

namespace Keyword

inductive Category where
  | controlFlow
  | definition
  | importing
  | modifier
  | literal
  | operator
  deriving DecidableEq, Repr

inductive Usage where
  | statement
  | expression
  | declaration
  | modifier
  | operator
  deriving DecidableEq, Repr

/-- Every reserved word, in the order of the listing. -/
def all : List Keyword :=
  [.ifWord, .elifWord, .elseWord, .whileWord, .returnWord, .passWord, .namespaceWord, .importWord,
    .asWord, .classWord, .defWord, .letWord, .newWord, .readonlyWord, .writeonlyWord, .trueWord,
    .falseWord, .noneWord, .andWord, .orWord, .notWord]

theorem mem_all (k : Keyword) : k ∈ all := by cases k <;> decide

/-- The canonical spelling. -/
def spelling : Keyword → String
  | ifWord => "if"
  | elifWord => "elif"
  | elseWord => "else"
  | whileWord => "while"
  | returnWord => "return"
  | passWord => "pass"
  | namespaceWord => "namespace"
  | importWord => "import"
  | asWord => "as"
  | classWord => "class"
  | defWord => "def"
  | letWord => "let"
  | newWord => "new"
  | readonlyWord => "readonly"
  | writeonlyWord => "writeonly"
  | trueWord => "true"
  | falseWord => "false"
  | noneWord => "none"
  | andWord => "and"
  | orWord => "or"
  | notWord => "not"

/-- Further spellings with the same meaning. -/
def aliases : Keyword → List String
  | defWord => ["fn"]
  | letWord => ["var"]
  | trueWord => ["True"]
  | falseWord => ["False"]
  | noneWord => ["None"]
  | _ => []

/-- The name shown in listings. -/
def label : Keyword → String
  | ifWord => "If"
  | elifWord => "Elif"
  | elseWord => "Else"
  | whileWord => "While"
  | returnWord => "Return"
  | passWord => "Pass"
  | namespaceWord => "Namespace"
  | importWord => "Import"
  | asWord => "As"
  | classWord => "Class"
  | defWord => "Def"
  | letWord => "Let"
  | newWord => "New"
  | readonlyWord => "Readonly"
  | writeonlyWord => "Writeonly"
  | trueWord => "True"
  | falseWord => "False"
  | noneWord => "None"
  | andWord => "And"
  | orWord => "Or"
  | notWord => "Not"

def category : Keyword → Category
  | ifWord | elifWord | elseWord | whileWord | returnWord | passWord => .controlFlow
  | namespaceWord | importWord | asWord => .importing
  | classWord | defWord | letWord | newWord => .definition
  | readonlyWord | writeonlyWord => .modifier
  | trueWord | falseWord | noneWord => .literal
  | andWord | orWord | notWord => .operator

/-- Where the word is used; a hint for listings. -/
def usage : Keyword → List Usage
  | ifWord | elseWord => [.statement, .expression]
  | elifWord | whileWord | returnWord | passWord | letWord => [.statement]
  | namespaceWord | importWord | asWord | classWord | defWord => [.declaration]
  | newWord | trueWord | falseWord | noneWord => [.expression]
  | readonlyWord | writeonlyWord => [.modifier]
  | andWord | orWord | notWord => [.operator]

def Category.label : Category → String
  | .controlFlow => "ControlFlow"
  | .definition => "Definition"
  | .importing => "Import"
  | .modifier => "Modifier"
  | .literal => "Literal"
  | .operator => "Operator"

def Usage.label : Usage → String
  | .statement => "Statement"
  | .expression => "Expression"
  | .declaration => "Declaration"
  | .modifier => "Modifier"
  | .operator => "Operator"

def ofSpelling? (s : String) : Option Keyword := findSpelling all spelling aliases s

theorem ofSpelling?_spelling (k : Keyword) : ofSpelling? k.spelling = some k := by
  cases k <;> decide

end Keyword
end StagedMapping
