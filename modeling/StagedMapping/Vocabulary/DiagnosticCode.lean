/-! Codes of the mapping diagnostics. A code and the condition that triggers it never
change, since builds filter on them. -/
namespace StagedMapping

inductive Severity where
  | error
  | warning
  deriving DecidableEq, Repr

def Severity.label : Severity → String
  | .error => "Error"
  | .warning => "Warning"

inductive DiagnosticCode where
  | invalidFirstParameter
  | noReturn
  | unsupportedStatement
  | invalidVariableReference
  | inexpressible
  | unsupportedControlFlow
  | outOfOrderLocal
  deriving DecidableEq, Repr

namespace DiagnosticCode

/-- Every code, in the order of the listing. -/
def all : List DiagnosticCode :=
  [.invalidFirstParameter, .noReturn, .unsupportedStatement, .invalidVariableReference,
    .inexpressible, .unsupportedControlFlow, .outOfOrderLocal]

theorem mem_all (d : DiagnosticCode) : d ∈ all := by cases d <;> decide

def code : DiagnosticCode → String
  | invalidFirstParameter => "SM0001"
  | noReturn => "SM0002"
  | unsupportedStatement => "SM0003"
  | invalidVariableReference => "SM0004"
  | inexpressible => "SM0005"
  | unsupportedControlFlow => "SM0006"
  | outOfOrderLocal => "SM0007"

/-- The name shown in listings. -/
def label : DiagnosticCode → String
  | invalidFirstParameter => "InvalidFirstParameter"
  | noReturn => "NoReturn"
  | unsupportedStatement => "UnsupportedStatement"
  | invalidVariableReference => "InvalidVariableReference"
  | inexpressible => "UntranslatableExpression"
  | unsupportedControlFlow => "UnsupportedControlFlow"
  | outOfOrderLocal => "OutOfOrderLocal"

def title : DiagnosticCode → String
  | invalidFirstParameter => "Invalid first parameter"
  | noReturn => "Missing return statement"
  | unsupportedStatement => "Unsupported statement"
  | invalidVariableReference => "Invalid variable reference"
  | inexpressible => "Untranslatable expression"
  | unsupportedControlFlow => "Unsupported control flow"
  | outOfOrderLocal => "Local used out of order"

def severity : DiagnosticCode → Severity := fun _ => .error

/-- When the code is reported. -/
def trigger : DiagnosticCode → String
  | invalidFirstParameter => "factory's first parameter is missing or not the source type"
  | noReturn => "factory body's last statement is not a return of an object construction"
  | unsupportedStatement => "a non-declaration statement reads the source parameter directly"
  | invalidVariableReference =>
    "a statement reads a local that was already marked as consuming the source parameter"
  | inexpressible =>
    "an expression cannot be represented as a translatable expression tree"
  | unsupportedControlFlow =>
    "a factory body contains a loop or a return before its final statement"
  | outOfOrderLocal =>
    "a local is read before its declaration, or changed after a source-derived variable read it"

def ofCode? (s : String) : Option DiagnosticCode := all.find? fun d => d.code == s

theorem ofCode?_code (d : DiagnosticCode) : ofCode? d.code = some d := by cases d <;> decide

end DiagnosticCode
end StagedMapping
