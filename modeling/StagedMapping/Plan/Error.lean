import StagedMapping.Tree.Eval

/-! Failures of a mapper: of its arguments, of an evaluation, or of a conversion between a
dynamic value and a typed one. -/
namespace StagedMapping

/-- A value that is not of the wanted type. -/
inductive ConvertError where
  | mismatch (expected found : String)
  | missingField (typeName field : String)
  deriving DecidableEq, Repr

def ConvertError.message : ConvertError → String
  | mismatch expected found => s!"expected {expected}, found {found}"
  | missingField typeName field => s!"record '{typeName}' is missing field '{field}'"

inductive MapError where
  | unknownFactory (digest : String)
  | missingArgument (name declaration : String)
  | tooManyArguments (declaration : String) (expected found : Nat)
  | eval (e : EvalError)
  | convert (e : ConvertError)
  deriving DecidableEq, Repr

def MapError.message : MapError → String
  | unknownFactory digest => s!"no factory with digest '{digest}'"
  | missingArgument name declaration => s!"missing required argument '{name}' for {declaration}"
  | tooManyArguments declaration expected found =>
    s!"{declaration} takes at most {expected} argument(s), found {found}"
  | eval e => e.message
  | convert e => e.message

end StagedMapping
