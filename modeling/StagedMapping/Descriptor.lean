import StagedMapping.Metadata
import StagedMapping.Noted
import StagedMapping.Source.Expr.Printer
import StagedMapping.Source.Module
import StagedMapping.Source.Problem
import StagedMapping.TypeRef.Reader
import StagedMapping.Vocabulary.Convention

/-! Descriptors: the members of a type, wherever it comes from. A compiled type has no
method bodies; a declared one keeps them, and the place of its declaration. -/
namespace StagedMapping

/-- The default of a parameter as written and, in a source, as syntax. -/
structure DefaultValue where
  text : String
  expr : Option Source.Expr
  deriving Repr

structure Parameter where
  name : String
  type : TypeRef
  default : Option DefaultValue
  span : Span
  deriving Repr

structure Method where
  declaring : TypeKey
  name : String
  returns : Option TypeRef
  parameters : List Parameter
  body : Option (List Source.Statement)
  span : Span
  deriving Repr

structure Property where
  declaring : TypeKey
  name : String
  type : TypeRef
  readable : Bool
  writable : Bool
  span : Span
  deriving Repr

/-- Where a type is declared: in which source of a pass, and where in it. -/
structure DeclaredAt where
  source : Nat
  span : Span
  deriving DecidableEq, Repr

structure Descriptor where
  key : TypeKey
  typeParams : List String
  properties : List Property
  methods : List Method
  /-- Absent for compiled types. -/
  declared : Option DeclaredAt
  deriving Repr

namespace Parameter

/-- The parameter as a declaration shows it. -/
def text (p : Parameter) : String :=
  p.type.text ++ " " ++ p.name ++
    match p.default with
    | some d => " = " ++ d.text
    | none => ""

end Parameter

/-- Name and parameters, by which a method is told from others of its type. -/
def Method.declaration (m : Method) : String :=
  m.name ++ "(" ++ String.intercalate ", " (m.parameters.map (·.text)) ++ ")"

namespace Property

/-- An accessor has no body and stands where its property does. -/
def accessor (p : Property) (name : String) (returns : Option TypeRef)
    (parameters : List Parameter) : Method :=
  ⟨p.declaring, name, returns, parameters, none, p.span⟩

def getter? (p : Property) : Option Method :=
  if p.readable then some (p.accessor (Convention.getterStart ++ p.name) (some p.type) []) else none

def setter? (p : Property) : Option Method :=
  if p.writable then
    some (p.accessor (Convention.setterStart ++ p.name) none [⟨"value", p.type, none, p.span⟩])
  else none

def text (p : Property) : String :=
  let access := match p.readable, p.writable with
    | true, false => "readonly "
    | false, true => "writeonly "
    | _, _ => ""
  access ++ p.name ++ ": " ++ p.type.text

end Property

namespace Descriptor

def qualified (d : Descriptor) : String := d.key.qualified

def isGeneric (d : Descriptor) : Bool := !d.typeParams.isEmpty

def property? (d : Descriptor) (name : String) : Option Property :=
  d.properties.find? (·.name == name)

/-- A reference to the type, applied to its own type parameters. -/
def toRef (d : Descriptor) : TypeRef := .mk d.key.ns d.key.name (d.typeParams.map .ofName)

/-- The reference names this type, whatever its arguments. -/
def isTypeOf (d : Descriptor) (t : TypeRef) : Bool := d.key == t.key

def sameType (d e : Descriptor) : Bool := d.key == e.key

/-- The namespaces of the types that members mention, in order and without repetition. -/
def namespaces (d : Descriptor) : List String :=
  let mentioned := d.properties.flatMap (·.type.namespaces) ++ d.methods.flatMap fun m =>
    m.parameters.flatMap (·.type.namespaces) ++ (m.returns.map (·.namespaces)).getD []
  mentioned.eraseDups.mergeSort (· ≤ ·)

/-- The type on one line. -/
def text (d : Descriptor) : String :=
  let params := if d.isGeneric then "[" ++ String.intercalate ", " d.typeParams ++ "]" else ""
  Value.braces (d.qualified ++ params) (d.properties.map (·.text))

/-! ### From compiled types -/

def ofCompiled (c : CompiledType) : Descriptor :=
  let key : TypeKey := ⟨c.ns, c.name⟩
  let read := TypeRef.parse c.ns c.typeParams
  { key
    typeParams := c.typeParams
    properties := c.properties.map fun p =>
      ⟨key, p.name, read p.type, p.readable, p.writable, .none⟩
    methods := c.methods.map fun m =>
      { declaring := key
        name := m.name
        returns := m.returns.map read
        parameters := m.parameters.map fun p =>
          ⟨p.name, read p.type, p.default.map fun text => ⟨text, none⟩, .none⟩
        body := none
        span := .none }
    declared := none }

/-! ### From classes -/

section
variable (resolve : Source.TypeExpr → Noted Problem TypeRef) (key : TypeKey)

def ofField (f : Source.Field) : Noted Problem Property := do
  return ⟨key, f.name, ← resolve f.type, f.access.isReadable, f.access.isWritable, f.span⟩

def ofParam (p : Source.Param) : Noted Problem Parameter := do
  return ⟨p.name, ← resolve p.type, p.default.map fun e => ⟨e.text, some e⟩, p.span⟩

def ofMethod (m : Source.Method) : Noted Problem Method := do
  return ⟨key, m.name, ← m.returns.mapM resolve, ← m.params.mapM (ofParam resolve), m.body, m.span⟩

/-- The descriptor of a class in a namespace, declared in a source of a pass; `resolve`
finds what its written types refer to. -/
def ofClass (source : Nat) (ns : String) (c : Source.Class) : Noted Problem Descriptor := do
  let key : TypeKey := ⟨ns, c.name⟩
  return ⟨key, c.typeParams, ← c.fields.mapM (ofField resolve key),
    ← c.methods.mapM (ofMethod resolve key), some ⟨source, c.span⟩⟩

end

end Descriptor
end StagedMapping
