import StagedMapping.Compilation
import StagedMapping.Digest

/-! Mappings from a source type to a target type. The default mapping pairs properties of
one name; a `Factory` is what is left of a method body that passed its analysis. -/
namespace StagedMapping

/-- Properties of one name. -/
structure MatchedProperty where
  source : Property
  target : Property
  deriving Repr

/-- A property that the final construction of a factory gives a value. -/
structure Initializer where
  target : Property
  value : Source.Expr
  deriving Repr

/-- A local that depends on the source. -/
structure Variable where
  name : String
  type : TypeRef
  value : Source.Expr
  span : Span
  deriving Repr

structure Factory where
  method : Method
  sourceParam : String
  /-- The parameters after the source. -/
  parameters : List Parameter
  vars : List Variable
  initializers : List Initializer
  /-- Statements that do not depend on the source. -/
  residuals : List Source.Statement
  residualLocals : List (String × TypeRef)
  deriving Repr

namespace Factory

def declaration (f : Factory) : String := f.method.declaration

def digest (f : Factory) : String := Digest.short f.declaration

/-- Nothing but initializers: the factory changes the default mapping. -/
def isDegenerate (f : Factory) : Bool :=
  f.parameters.isEmpty && f.vars.isEmpty && f.residuals.isEmpty

end Factory

structure Mapping where
  source : TypeRef
  target : TypeRef
  declared : DeclaredAt
  properties : List MatchedProperty
  factories : List Factory
  deriving Repr

/-- The property of the source that a property of the target takes its value from. -/
def Descriptor.matching? (source : Descriptor) (target : Property) : Option MatchedProperty :=
  if target.readable && target.writable then
    match source.property? target.name with
    | some p => if p.readable then some ⟨p, target⟩ else none
    | none => none
  else none

/-- Properties of one name, in the order of the target. -/
def defaultProperties (source target : Descriptor) : List MatchedProperty :=
  target.properties.filterMap source.matching?

end StagedMapping
