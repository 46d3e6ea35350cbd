import StagedMapping.Source.Problem

/-! Diagnostics of factories. A `FactoryFault` is the cause: what it is called, and what is
said of it. A diagnostic drops the one factory it is about, and the pass goes on. -/
namespace StagedMapping

/-- The method a diagnostic is about: its type, its name, and the source it is in. -/
structure Site where
  target : String
  method : String
  source : Nat
  deriving DecidableEq, Repr

/-- Control flow that cannot be staged. -/
inductive ControlFlow where
  | loop
  | earlyReturn
  deriving DecidableEq, Repr

def ControlFlow.text : ControlFlow → String
  | loop => "'while' loops cannot be staged"
  | earlyReturn => "'return' is only allowed as the final statement"

/-- Why an expression has no tree. -/
inductive Inexpressible where
  | unbound (name : String)
  | unknownMethod (name : String)
  | argumentCount (name : String) (expected found : Nat)
  | functionCall
  | positionalArgument
  deriving DecidableEq, Repr

def Inexpressible.text : Inexpressible → String
  | unbound name => s!"'{name}' is not bound here"
  | unknownMethod name => s!"'{name}' is not a builtin method"
  | argumentCount name expected found =>
    s!"'{name}' takes {expected} argument(s), found {found}"
  | functionCall => "only builtin methods can be called"
  | positionalArgument => "construction arguments must be named"

/-- What is wrong with a factory. -/
inductive FactoryFault where
  | firstParameter (source : String)
  | noReturn
  /-- The final construction builds another type. -/
  | wrongReturn (built : String)
  /-- A statement other than a `let` reads the source. -/
  | readsSource (param : String)
  /-- A local that depends on the source is read where it may not be, or again. -/
  | readsVariable (name param : String)
  | readBeforeDeclaration (name : String)
  | changedAfterRead (name reader : String)
  | inexpressible (expr : String) (why : Inexpressible)
  | controlFlow (what : ControlFlow)
  deriving DecidableEq, Repr

namespace FactoryFault

def code : FactoryFault → DiagnosticCode
  | firstParameter _ => .invalidFirstParameter
  | noReturn | wrongReturn _ => .noReturn
  | readsSource _ => .unsupportedStatement
  | readsVariable .. => .invalidVariableReference
  | readBeforeDeclaration _ | changedAfterRead .. => .outOfOrderLocal
  | inexpressible .. => .inexpressible
  | controlFlow _ => .unsupportedControlFlow

/-- The message for a method of a type. -/
def message (target method : String) : FactoryFault → String
  | firstParameter source =>
    s!"First parameter type of method '{target}.{method}' should be the source type '{source}'"
  | noReturn => s!"Missing return statement in method '{target}.{method}'"
  | wrongReturn built =>
    s!"Missing return statement in method '{target}.{method}': " ++
      s!"the final statement builds '{built}' instead of '{target}'"
  | readsSource param =>
    s!"Invalid statement in method '{target}.{method}': " ++
      s!"only variables can access the source parameter '{param}'"
  | readsVariable name param =>
    s!"Cannot access variable '{name}' in method '{target}.{method}': " ++
      s!"the variable uses the source parameter '{param}', which can only be accessed once"
  | readBeforeDeclaration name =>
    s!"Cannot access variable '{name}' in method '{target}.{method}': " ++
      "the variable is declared later in the method"
  | changedAfterRead name reader =>
    s!"Cannot change variable '{name}' in method '{target}.{method}': " ++
      s!"source variable '{reader}' already read it"
  | inexpressible expr why =>
    s!"Expression '{expr}' in method '{target}.{method}' cannot be translated: {why.text}"
  | controlFlow what => s!"Unsupported control flow in method '{target}.{method}': {what.text}"

end FactoryFault

structure Diagnostic where
  fault : FactoryFault
  site : Site
  span : Span
  deriving DecidableEq, Repr

namespace Diagnostic

def code (d : Diagnostic) : DiagnosticCode := d.fault.code

def message (d : Diagnostic) : String := d.fault.message d.site.target d.site.method

def isError (d : Diagnostic) : Bool := d.code.severity == .error

/-- Code and message on one line. -/
def text (d : Diagnostic) : String := d.code.code ++ ": " ++ d.message

def report (d : Diagnostic) (source : String) : Report :=
  { message := d.message
    code := some d.code.code
    severity := d.code.severity
    help := some (d.code.code ++ " is reported when " ++ d.code.trigger)
    labels := [Problem.label d.code.title d.span source] }

end Diagnostic
end StagedMapping
