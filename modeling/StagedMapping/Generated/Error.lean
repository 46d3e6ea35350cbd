import StagedMapping.Generated.Identifier
import StagedMapping.Number.FloatText

/-! Why a compilation that has no problems may still have no generated code: a name that
cannot be spelled, a number that has no written form, or a source root that is no path. -/
namespace StagedMapping

/-- What a name is used for in generated code. -/
inductive NameRole where
  | cls
  | typeParameter
  | property
  | type
  | mapper
  | mapperFunction
  | factoryParameter
  | namespaceSegment
  | generatedModule
  deriving DecidableEq, Repr

def NameRole.text : NameRole → String
  | cls => "class"
  | typeParameter => "type parameter"
  | property => "property"
  | type => "type"
  | mapper => "mapper"
  | mapperFunction => "mapper function"
  | factoryParameter => "factory parameter"
  | namespaceSegment => "namespace segment"
  | generatedModule => "generated module"

inductive EmitError where
  | identifier (role : NameRole) (name : String)
  /-- A constant in the plan for a target. -/
  | nonFinite (value : Float) (target : String)
  | sourceRoot (text : String)
  /-- The source root stands where its words are not allowed. -/
  | unreadable
  deriving Repr

def EmitError.message : EmitError → String
  | identifier role name => s!"{role.text} '{name}' cannot be spelled as a Rust identifier"
  | nonFinite value target =>
    s!"float constant {Number.plain value} in the plan of '{target}' has no Rust literal"
  | sourceRoot text =>
    s!"invalid source root '{text}': expected a Rust path such as \x60crate::domain\x60"
  | unreadable => "generated code does not parse"

namespace Generated

/-- The identifier for a name, which has to have one. -/
def identifier (role : NameRole) (name : String) : Except EmitError String :=
  match identifier? name with
  | some s => .ok s
  | none => .error (.identifier role name)

end Generated
end StagedMapping
