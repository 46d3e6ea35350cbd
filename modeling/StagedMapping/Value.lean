import StagedMapping.Bindings
import StagedMapping.Number.FloatText
import StagedMapping.Text.Quoted

/-! The values that mappings read and build. A record has a type name and fields in order;
`Value.text` writes a value as the text of a tree shows it. -/
namespace StagedMapping

inductive Value where
  | none
  | bool (b : Bool)
  | int (n : Int64)
  | float (x : Float)
  | str (s : String)
  | list (items : List Value)
  | record (typeName : String) (fields : List (String × Value))
  deriving Repr, Inhabited

/-- A record by itself. -/
structure Record where
  typeName : String
  fields : List (String × Value)
  deriving Repr

namespace Value

/-- The word for the kind of a value in messages. -/
def kind : Value → String
  | none => "none"
  | bool _ => "bool"
  | int _ => "int"
  | float _ => "float"
  | str _ => "str"
  | list _ => "List"
  | record .. => "record"

/-! ### Views -/

def isNone : Value → Bool
  | none => true
  | _ => false

def asBool : Value → Option Bool
  | bool b => some b
  | _ => Option.none

def asStr : Value → Option String
  | str s => some s
  | _ => Option.none

/-- Both kinds of numbers as a float. -/
def asFloat : Value → Option Float
  | int n => some (Number.ofInt64 n)
  | float x => some x
  | _ => Option.none

def asRecord : Value → Option Record
  | record typeName fields => some ⟨typeName, fields⟩
  | _ => Option.none

/-- Makes a float of an integer where a float is declared. -/
def coerce (v : Value) (type : String) : Value :=
  match v with
  | int n => if type = "float" then float (Number.ofInt64 n) else v
  | _ => v

/-! ### Equality -/

mutual

/-- Equality of values of one kind. A float that is not a number equals nothing, and the
two zeros are equal. -/
def same : Value → Value → Bool
  | none, none => true
  | bool a, bool b => a == b
  | int a, int b => a == b
  | float a, float b => a == b
  | str a, str b => a == b
  | list a, list b => sameItems a b
  | record t a, record u b => t == u && sameFields a b
  | _, _ => false

def sameItems : List Value → List Value → Bool
  | [], [] => true
  | a :: as, b :: bs => same a b && sameItems as bs
  | _, _ => false

def sameFields : List (String × Value) → List (String × Value) → Bool
  | [], [] => true
  | (m, a) :: as, (n, b) :: bs => m == n && same a b && sameFields as bs
  | _, _ => false

end

/-- Equality that takes an integer as a float where it meets one; not inside lists and
records. -/
def equal : Value → Value → Bool
  | int a, float b => Number.ofInt64 a == b
  | float a, int b => a == Number.ofInt64 b
  | a, b => same a b

/-! ### Text -/

/-- Entries in braces after a head, each with a blank before it. -/
def braces (head : String) (entries : List String) : String :=
  if entries.isEmpty then head ++ " \x7b\x7d"
  else head ++ " \x7b " ++ String.intercalate ", " entries ++ " \x7d"

mutual

/-- A value as the text of a tree shows it. -/
def text : Value → String
  | none => "none"
  | bool true => "true"
  | bool false => "false"
  | int n => toString n.toInt
  | float x => Number.render x
  | str s => Text.quote s
  | list items => "[" ++ String.intercalate ", " (itemTexts items) ++ "]"
  | record typeName fields => braces typeName (fieldTexts fields)

def itemTexts : List Value → List String
  | [] => []
  | v :: rest => text v :: itemTexts rest

def fieldTexts : List (String × Value) → List String
  | [] => []
  | (name, v) :: rest => (name ++ ": " ++ text v) :: fieldTexts rest

end

/-- As `text`, but a string is not quoted. -/
def plain : Value → String
  | str s => s
  | v => v.text

end Value

namespace Record

def get? (r : Record) (name : String) : Option Value := Bindings.get? r.fields name

def set (r : Record) (name : String) (value : Value) : Record :=
  { r with fields := Bindings.set r.fields name value }

def names (r : Record) : List String := Bindings.names r.fields

def toValue (r : Record) : Value := .record r.typeName r.fields

def text (r : Record) : String := r.toValue.text

end Record
end StagedMapping
