import StagedMapping.Name
import StagedMapping.Vocabulary.BuiltinType

/-! References to types: the identity of a type and the arguments it is applied to. Builtin
types, type parameters and names that are not resolved live in the empty namespace. -/
namespace StagedMapping

/-- The identity of a type. -/
structure TypeKey where
  ns : String
  name : String
  deriving DecidableEq, Repr

def TypeKey.qualified (k : TypeKey) : String := Name.qualify k.ns k.name

inductive TypeRef where
  | mk (ns name : String) (args : List TypeRef)
  deriving Repr, Inhabited

namespace TypeRef

def ns : TypeRef → String
  | mk ns .. => ns

def name : TypeRef → String
  | mk _ name _ => name

def args : TypeRef → List TypeRef
  | mk _ _ args => args

def key (t : TypeRef) : TypeKey := ⟨t.ns, t.name⟩

def qualified (t : TypeRef) : String := Name.qualify t.ns t.name

/-- The type that a qualified name names. -/
def ofQualified (path : String) : TypeRef :=
  let (ns, name) := Name.splitQualified path
  mk ns name []

/-- A name in the empty namespace. -/
def ofName (name : String) : TypeRef := mk "" name []

def builtin (b : BuiltinType) : TypeRef := ofName b.spelling

def any : TypeRef := builtin .any

def withArgs (t : TypeRef) (args : List TypeRef) : TypeRef := mk t.ns t.name args

/-- The builtin type that is meant, by any of its spellings. -/
def builtin? (t : TypeRef) : Option BuiltinType :=
  if t.ns = "" then BuiltinType.ofSpelling? t.name else none

def isStr (t : TypeRef) : Bool := t.builtin? == some .str

def isAny (t : TypeRef) : Bool := t.builtin? == some .any

def isNumeric (t : TypeRef) : Bool := t.builtin?.any BuiltinType.isNumeric

mutual

/-- The qualified name, with arguments in brackets. -/
def text : TypeRef → String
  | mk ns name [] => Name.qualify ns name
  | mk ns name (a :: rest) =>
    Name.qualify ns name ++ "[" ++ text a ++ restText rest ++ "]"

/-- Each argument after a comma. -/
def restText : List TypeRef → String
  | [] => ""
  | a :: rest => ", " ++ text a ++ restText rest

end

mutual

/-- Equality of names and of arguments. -/
def same : TypeRef → TypeRef → Bool
  | mk m a as, mk n b bs => m == n && a == b && sameArgs as bs

def sameArgs : List TypeRef → List TypeRef → Bool
  | [], [] => true
  | a :: as, b :: bs => same a b && sameArgs as bs
  | _, _ => false

end

mutual

/-- The nonempty namespaces of a reference and of its arguments. -/
def namespaces : TypeRef → List String
  | mk ns _ args => if ns = "" then argNamespaces args else ns :: argNamespaces args

def argNamespaces : List TypeRef → List String
  | [] => []
  | a :: rest => namespaces a ++ argNamespaces rest

end

/-- The argument given for a parameter. -/
def argumentOf (params : List String) (args : List TypeRef) (name : String) : Option TypeRef :=
  match params, args with
  | p :: ps, a :: as => if p = name then some a else argumentOf ps as name
  | _, _ => none

mutual

/-- The reference with arguments in the place of type parameters. -/
def substitute (params : List String) (args : List TypeRef) : TypeRef → TypeRef
  | mk ns name [] =>
    if ns = "" then (argumentOf params args name).getD (mk ns name []) else mk ns name []
  | mk ns name (a :: rest) =>
    mk ns name (substitute params args a :: substituteAll params args rest)

def substituteAll (params : List String) (args : List TypeRef) : List TypeRef → List TypeRef
  | [] => []
  | a :: rest => substitute params args a :: substituteAll params args rest

end

end TypeRef
end StagedMapping
