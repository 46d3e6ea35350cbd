import StagedMapping.Metadata.Document
import StagedMapping.Name
import StagedMapping.Typed

/-! Compiled types: types that exist outside the sources, known by their names, properties
and methods, but without bodies. They are read from documents (`CompiledType.ofDocument`) or
taken from a record type (`FieldType.compiled?`). -/
namespace StagedMapping

structure CompiledProperty where
  name : String
  type : String
  readable : Bool
  writable : Bool
  deriving DecidableEq, Repr

structure CompiledParameter where
  name : String
  type : String
  default : Option String
  deriving DecidableEq, Repr

structure CompiledMethod where
  name : String
  returns : Option String
  parameters : List CompiledParameter
  deriving DecidableEq, Repr

structure CompiledType where
  name : String
  ns : String
  typeParams : List String
  properties : List CompiledProperty
  methods : List CompiledMethod
  deriving DecidableEq, Repr

def CompiledType.qualified (c : CompiledType) : String := Name.qualify c.ns c.name

/-! ### From documents -/

namespace Document

def asText? : Document → Option String
  | text s => s
  | _ => none

def asBool? : Document → Option Bool
  | bool b => some b
  | _ => none

/-- Null, or what `f` makes of anything else. -/
def nullOr {α : Type} (f : Document → Option α) : Document → Option (Option α)
  | null => some none
  | d => (f d).map some

def asList? {α : Type} (f : Document → Option α) : Document → Option (List α)
  | array items => items.mapM f
  | _ => none

/-- The member of a name, if there is one; there may not be two. -/
def member? (members : List (Option String × Document)) (name : String) :
    Option (Option Document) :=
  match members.filter (·.1 == some name) with
  | [] => some none
  | [m] => some (some m.2)
  | _ => none

/-- What is given for each of the names: by name in an object, whose other members do not
matter, or by position in an array, which may be shorter. -/
def slots (names : List String) : Document → Option (List (Option Document))
  | object members =>
    if members.all (·.1.isSome) then names.mapM (member? members) else none
  | array items =>
    if items.length ≤ names.length then
      some (items.map some ++ List.replicate (names.length - items.length) none)
    else none
  | _ => none

/-- What `f` makes of a slot, which may be left empty. -/
def orElse {α : Type} (slot : Option Document) (default : α) (f : Document → Option α) :
    Option α :=
  match slot with
  | none => some default
  | some d => f d

end Document

section
open Document

def CompiledProperty.ofDocument (d : Document) : Option CompiledProperty := do
  match ← d.slots ["name", "type", "readable", "writable"] with
  | [name, type, readable, writable] =>
    return ⟨← (← name).asText?, ← (← type).asText?, ← orElse readable true asBool?,
      ← orElse writable true asBool?⟩
  | _ => none

def CompiledParameter.ofDocument (d : Document) : Option CompiledParameter := do
  match ← d.slots ["name", "type", "default"] with
  | [name, type, default] =>
    return ⟨← (← name).asText?, ← (← type).asText?, ← orElse default none (nullOr asText?)⟩
  | _ => none

def CompiledMethod.ofDocument (d : Document) : Option CompiledMethod := do
  match ← d.slots ["name", "returns", "parameters"] with
  | [name, returns, parameters] =>
    return ⟨← (← name).asText?, ← orElse returns none (nullOr asText?),
      ← orElse parameters [] (asList? CompiledParameter.ofDocument)⟩
  | _ => none

def CompiledType.ofDocument (d : Document) : Option CompiledType := do
  match ← d.slots ["name", "namespace", "type_params", "properties", "methods"] with
  | [name, ns, typeParams, properties, methods] =>
    return ⟨← (← name).asText?, ← orElse ns "" asText?, ← orElse typeParams [] (asList? asText?),
      ← orElse properties [] (asList? CompiledProperty.ofDocument),
      ← orElse methods [] (asList? CompiledMethod.ofDocument)⟩
  | _ => none

/-- The compiled types that a metadata text lists. -/
def CompiledType.parseList (text : String) : Option (List CompiledType) := do
  (← Document.parse text).asList? ofDocument

end

/-! ### From record types -/

/-- A record type as a compiled one; a type parameter shows as what it stands for. -/
def FieldType.compiled? : FieldType → Option CompiledType
  | record ns name typeParams fields => some
    { name, ns, typeParams
      properties := fields.map fun (name, access, type) =>
        ⟨name, type.typeName, access.isReadable, access.isWritable⟩
      methods := [] }
  | _ => none

end StagedMapping
