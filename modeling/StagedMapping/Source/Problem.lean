import StagedMapping.Source.Span
import StagedMapping.Text.Lines
import StagedMapping.Vocabulary.DiagnosticCode

/-! Problems of a source. A `Fault` is the cause, and says what kind of problem it is, its
message, and the notes and hints that go with it; a `Problem` is a fault at a place.
`Problem.format` shows one under the line it is on. -/
namespace StagedMapping

/-- The tiers of problems; only a warning lets a pass go on to generate code. -/
inductive ProblemKind where
  | error
  | syntactic
  | resolution
  | warning
  deriving DecidableEq, Repr

def ProblemKind.text : ProblemKind → String
  | .error => "error"
  | .syntactic => "syntax error"
  | .resolution => "resolution error"
  | .warning => "warning"

/-- Why a source is refused. -/
inductive Fault where
  /-- A character that starts no token. -/
  | unexpectedCharacter (c : Char)
  | unterminatedString
  | invalidFloat (text : String)
  | invalidInteger (text : String)
  | unmatchedBracket
  | unclosedBracket
  /-- A line that returns to an indentation no enclosing block has. -/
  | inconsistentIndentation (expected found : Nat)
  /-- A token that does not go on from those before it. -/
  | unexpected (wanted found : String)
  | decorated (what : String)
  | secondNamespace
  | shortImport
  | repeatedField (cls field : String)
  /-- A local with neither a type nor a value. -/
  | bareLocal (name : String)
  /-- An assignment to something other than a name. -/
  | cannotAssign (target : String)
  | unknownType (name : String)
  | ambiguousType (name : String) (candidates : List String)
  | typeArgumentCount (name : String) (expected found : Nat)
  | repeatedType (name : String)
  | decoratorArguments (name : String)
  /-- A problem put into words by whoever found it. -/
  | reported (kind : ProblemKind) (message : String) (notes hints : List String)
  deriving DecidableEq, Repr

namespace Fault

def kind : Fault → ProblemKind
  | unknownType _ | ambiguousType .. | typeArgumentCount .. | repeatedType _ => .resolution
  | repeatedField .. | decoratorArguments _ => .error
  | reported kind .. => kind
  | _ => .syntactic

def message : Fault → String
  | unexpectedCharacter c => s!"Unexpected character '{c}'"
  | unterminatedString => "Unterminated string literal"
  | invalidFloat text => s!"Invalid float literal: {text}"
  | invalidInteger text => s!"Invalid integer literal: {text}"
  | unmatchedBracket => "Unmatched closing bracket"
  | unclosedBracket => "Unclosed bracket at end of file"
  | inconsistentIndentation expected found =>
    s!"Inconsistent indentation: expected {expected} spaces, got {found}"
  | unexpected wanted found => s!"Expected {wanted}, found {found}"
  | decorated what => s!"Decorators are not allowed on {what} declarations"
  | secondNamespace => "A module may declare at most one namespace"
  | shortImport => "Import path must name a namespace and a type"
  | repeatedField cls field => s!"Class '{cls}' already declares '{field}'"
  | bareLocal name => s!"Local '{name}' needs a type annotation or an initializer"
  | cannotAssign target => s!"Cannot assign to '{target}'"
  | unknownType name => s!"Unknown type '{name}'"
  | ambiguousType name _ => s!"Type '{name}' is ambiguous"
  | typeArgumentCount name expected found =>
    s!"Type '{name}' takes {expected} type argument(s), found {found}"
  | repeatedType name => s!"Type '{name}' is declared more than once"
  | decoratorArguments name => s!"Decorator '@{name}' expects exactly one type argument"
  | reported _ message .. => message

def notes : Fault → List String
  | ambiguousType _ candidates => ["candidates: " ++ String.intercalate ", " candidates]
  | repeatedType _ => ["the first declaration is used"]
  | reported _ _ notes _ => notes
  | _ => []

def hints : Fault → List String
  | shortImport => ["Write it as `import namespace::Type` or `import namespace::*`"]
  | cannotAssign _ => ["Only local names can be assigned"]
  | unknownType _ => ["Did you forget to import it or declare it in this namespace?"]
  | ambiguousType .. => ["Import the type explicitly or use its qualified path"]
  | decoratorArguments name => [s!"Write it as @{name}(SourceType)"]
  | reported _ _ _ hints => hints
  | _ => []

end Fault

/-- A fault and where it was found. -/
structure Problem where
  fault : Fault
  span : Span
  deriving DecidableEq, Repr

/-- What a viewer needs to show a problem in its source: each label is a text with the
offset and the length of what it points at. -/
structure Report where
  message : String
  code : Option String
  severity : Severity
  help : Option String
  labels : List (String × Nat × Nat)
  deriving DecidableEq, Repr

namespace Problem

def isError (p : Problem) : Bool := p.fault.kind ≠ .warning

/-- Kind and message on one line. -/
def text (p : Problem) : String := p.fault.kind.text ++ ": " ++ p.fault.message

/-- The label of a report, kept inside the source. -/
def label (title : String) (span : Span) (source : String) : String × Nat × Nat :=
  let s := span.clamp (Text.byteLength source.toList)
  (title, s.start, s.stop - s.start)

def report (p : Problem) (source : String) : Report :=
  let help := p.fault.notes ++ p.fault.hints
  { message := p.fault.message
    code := none
    severity := if p.isError then .error else .warning
    help := if help.isEmpty then none else some (String.intercalate "\n" help)
    labels := [label p.fault.kind.text p.span source] }

/-- `n` times the same character. -/
def run (n : Nat) (c : Char) : String := String.ofList (List.replicate n c)

/-- Header, place, the line itself and carets under it, then notes and hints. -/
def format (p : Problem) (file source : String) : String :=
  let place := Text.lineAt source.toList p.span.start
  let number := toString place.line
  let gutter := run number.length ' '
  let carets := max 1 (min (p.span.stop - p.span.start) (max 1 (Text.byteLength place.text)))
  p.text ++ "\n" ++
    s!"  --> {file}:{number}:{place.column}\n" ++
    "  " ++ gutter ++ " |\n" ++
    "  " ++ number ++ " | " ++ String.ofList place.text ++ "\n" ++
    "  " ++ gutter ++ " | " ++ run (place.column - 1) ' ' ++ run carets '^' ++ "\n" ++
    String.join (p.fault.notes.map fun n => "  = note: " ++ n ++ "\n") ++
    String.join (p.fault.hints.map fun h => "  = hint: " ++ h ++ "\n")

/-- Several problems of one file, one after the other. -/
def formatAll (problems : List Problem) (file source : String) : String :=
  String.join (problems.map fun p => p.format file source)

end Problem
end StagedMapping
