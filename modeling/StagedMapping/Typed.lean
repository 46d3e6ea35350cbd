import StagedMapping.Access
import StagedMapping.Plan.Error

/-! Typed values. A `FieldType` stands for a type, whose values are `FieldType.Carrier`; they
are carried through mappings as dynamic values (`toValue`, `ofValue`). A mapped record
becomes a typed one by overwriting the fields of the default (`intoTarget`). -/
namespace StagedMapping

inductive FieldType where
  | str
  | int
  /-- Integers of 32 bits. -/
  | int32
  | float
  | bool
  | any
  | option (type : FieldType)
  | list (type : FieldType)
  | record (ns name : String) (typeParams : List String)
      (fields : List (String × Access × FieldType))
  deriving Repr

namespace FieldType

/-- The name of a type, as a source writes it. -/
def typeName : FieldType → String
  | str => "str"
  | int | int32 => "int"
  | float => "float"
  | bool => "bool"
  | any => "any"
  | option type => "Option[" ++ type.typeName ++ "]"
  | list type => "List[" ++ type.typeName ++ "]"
  | record ns name .. => if ns = "" then name else ns ++ "::" ++ name

mutual

/-- The values of a type. -/
@[reducible] def Carrier : FieldType → Type
  | str => String
  | int => Int64
  | int32 => Int32
  | float => Float
  | bool => Bool
  | any => Value
  | option type => Option (Carrier type)
  | list type => List (Carrier type)
  | record _ _ _ fields => FieldCarriers fields

/-- The values of fields, in order. -/
@[reducible] def FieldCarriers : List (String × Access × FieldType) → Type
  | [] => Unit
  | (_, _, type) :: rest => Carrier type × FieldCarriers rest

end

mutual

/-- Zero, empty or absent. -/
def default : (type : FieldType) → type.Carrier
  | str => ""
  | int => (0 : Int64)
  | int32 => (0 : Int32)
  | float => (0 : Float)
  | bool => false
  | any => Value.none
  | option _ => Option.none
  | list _ => []
  | record _ _ _ fields => defaults fields

def defaults : (fields : List (String × Access × FieldType)) → FieldCarriers fields
  | [] => ()
  | (_, _, type) :: rest => (default type, defaults rest)

end

mutual

def toValue : (type : FieldType) → type.Carrier → Value
  | str, s => .str s
  | int, n => .int n
  | int32, n => .int n.toInt64
  | float, x => .float x
  | bool, b => .bool b
  | any, v => v
  | option type, x =>
    match x with
    | some a => toValue type a
    | Option.none => .none
  | list type, xs => .list (xs.map (toValue type))
  | record ns name params fields, r =>
    .record (record ns name params fields).typeName (toFields fields r)

def toFields : (fields : List (String × Access × FieldType)) → FieldCarriers fields →
    List (String × Value)
  | [], _ => []
  | (name, _, type) :: rest, (a, r) => (name, toValue type a) :: toFields rest r

end

/-- The list without its element at `i`, in whose place the last one goes. -/
def swapRemove {α : Type} (xs : List α) (i : Nat) : List α :=
  match xs.getLast? with
  | some last => (xs.set i last).dropLast
  | Option.none => []

/-- The first field of a name, and the other fields. -/
def takeField (fields : List (String × Value)) (name : String) :
    Option (Value × List (String × Value)) :=
  let i := fields.findIdx (·.1 == name)
  fields[i]?.map fun f => (f.2, swapRemove fields i)

mutual

def ofValue : (type : FieldType) → Value → Except ConvertError type.Carrier
  | str, .str s => .ok s
  | int, .int n => .ok n
  | int32, .int n =>
    if n.toInt32.toInt64 = n then .ok n.toInt32
    else .error (.mismatch "int (32-bit)" "int")
  | float, .float x => .ok x
  | float, .int n => .ok (Number.ofInt64 n)
  | bool, .bool b => .ok b
  | any, v => .ok v
  | option _, .none => .ok Option.none
  | option type, v => (ofValue type v).map some
  | list type, .list items => items.mapM (ofValue type)
  | record _ _ _ fields, .record typeName values => ofFields typeName fields values
  | type, v => .error (.mismatch type.typeName v.kind)

/-- Takes the fields one after the other out of the fields of a record. -/
def ofFields (typeName : String) : (fields : List (String × Access × FieldType)) →
    List (String × Value) → Except ConvertError (FieldCarriers fields)
  | [], _ => .ok ()
  | (name, _, type) :: rest, values =>
    match takeField values name with
    | Option.none => .error (.missingField typeName name)
    | some (v, others) => do
      let a ← ofValue type v
      return (a, ← ofFields typeName rest others)

end

end FieldType

/-- A mapped record as a typed one; fields that the mapping did not produce are those of
`start`. -/
def intoTargetFrom (type : FieldType) (start : type.Carrier) (v : Value) :
    Except MapError type.Carrier :=
  match type, start, v with
  | .record ns name params fields, start, .record _ produced =>
    let typeName := (FieldType.record ns name params fields).typeName
    let kept := FieldType.toFields fields start
    let values := produced.foldl (fun r f => Bindings.set r f.1 f.2) kept
    (FieldType.ofFields typeName fields values).mapError .convert
  | type, _, v => .error (.convert (.mismatch type.typeName v.kind))

/-- A mapped record as a typed one; fields that the mapping did not produce keep their
default. -/
def intoTarget (type : FieldType) (v : Value) : Except MapError type.Carrier :=
  intoTargetFrom type type.default v

end StagedMapping
