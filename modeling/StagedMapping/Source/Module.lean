import StagedMapping.Access
import StagedMapping.Name
import StagedMapping.Source.Statement

/-! Source modules: a namespace, imports, and classes with fields and methods. -/
namespace StagedMapping.Source

/-- `@name(args)` before a class. -/
structure Decorator where
  span : Span
  name : String
  args : List TypeExpr
  deriving Repr

structure Field where
  span : Span
  access : Access
  name : String
  type : TypeExpr
  deriving Repr

structure Param where
  span : Span
  name : String
  type : TypeExpr
  default : Option Expr
  deriving Repr

/-- A method; without a body it is only declared. -/
structure Method where
  span : Span
  name : String
  params : List Param
  returns : Option TypeExpr
  body : Option (List Statement)
  deriving Repr

structure Class where
  span : Span
  decorators : List Decorator
  name : String
  typeParams : List String
  fields : List Field
  methods : List Method
  deriving Repr

inductive Declaration where
  | space (span : Span) (path : List String)
  /-- One type, under its own name or an alias. -/
  | importType (span : Span) (path : List String) (rename : Option String)
  /-- Every type of a namespace. -/
  | importAll (span : Span) (path : List String)
  | cls (c : Class)
  | doc (span : Span) (text : String)
  deriving Repr

def Declaration.span : Declaration → Span
  | .space span _ => span
  | .importType span .. => span
  | .importAll span _ => span
  | .cls c => c.span
  | .doc span _ => span

/-- A parsed source. -/
structure Module where
  declarations : List Declaration
  deriving Repr

namespace Module

/-- The path of a namespace declaration. -/
def spacePath? : Declaration → Option String
  | .space _ path => some (Name.joinPath path)
  | _ => none

/-- The declared namespace, empty if there is none. -/
def ns (m : Module) : String := (m.declarations.findSome? spacePath?).getD ""

def class? : Declaration → Option Class
  | .cls c => some c
  | _ => none

/-- The classes in the order written. -/
def classes (m : Module) : List Class := m.declarations.filterMap class?

/-- The name an import binds and the qualified name it stands for. -/
def importedType? : Declaration → Option (String × String)
  | .importType _ path rename =>
    (rename.or path.getLast?).map fun name => (name, Name.joinPath path)
  | _ => none

/-- The namespace an import opens. -/
def importedSpace? : Declaration → Option String
  | .importAll _ path => some (Name.joinPath path)
  | _ => none

def isImport : Declaration → Bool
  | .importType .. | .importAll .. => true
  | _ => false

end Module
end StagedMapping.Source
