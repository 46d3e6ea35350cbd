import StagedMapping.Compilation
import StagedMapping.Generated.Error
import StagedMapping.Generated.Path

/-! How generated code names types. A declared type lives in the generated tree of modules
(`Home.generated`), any other type under the source root. A module imports the namespaces
that its items refer to, as a whole (`importedSpaces`); types of the root namespace are named
by their paths instead. -/
namespace StagedMapping.Generated

/-! ### Where types live -/

inductive Home where
  | generated
  | compiled
  deriving DecidableEq, Repr

/-- A namespace that an item refers to; it is empty for types of the root namespace. -/
structure Reference where
  home : Home
  ns : String
  deriving DecidableEq, Repr

/-- Generated namespaces come first, and each group is in order. -/
def Reference.le (a b : Reference) : Bool :=
  match a.home, b.home with
  | .generated, .compiled => true
  | .compiled, .generated => false
  | _, _ => a.ns ≤ b.ns

/-- The reference from a module of namespace `ns` needs an import. -/
def Reference.isImported (ns : String) (r : Reference) : Bool :=
  r.ns ≠ "" && !(r.home == .generated && r.ns == ns)

/-- The imports of a module of namespace `ns` whose items make some references. -/
def importedSpaces (ns : String) (references : List Reference) : List Reference :=
  (references.filter (·.isImported ns)).eraseDups.mergeSort Reference.le

/-- The nesting of a module below the generated root. -/
def depth (ns : String) : Nat := (Name.segments ns).length

/-- The words of the path from a module to the generated root. -/
def wordsUp (depth : Nat) : List String :=
  if depth = 0 then ["self"] else List.replicate depth "super"

/-! ### Types -/

/-- What the spelling of types depends on: the pass, and the path to compiled types. -/
structure Surroundings where
  compilation : Compilation
  root : Path

namespace Surroundings
variable (s : Surroundings)

def home (t : TypeRef) : Home :=
  match s.compilation.descriptor? t with
  | some d => if d.declared.isSome then .generated else .compiled
  | none => .compiled

/-- A type by its identifier, behind a path if it is of the root namespace. -/
def named (depth : Nat) (t : TypeRef) (word : String) : Code :=
  match s.home t with
  | .compiled => if t.ns = "" then s.root.code ++ absolute [word] else [.symbol word]
  | .generated =>
    if t.ns = "" ∧ depth > 0 then joined (wordsUp depth ++ [word]) else [.symbol word]

/-- The type of values without a static type. -/
def anyCode : Code := runtime ["Value"]

mutual

/-- A type as a module at some depth spells it, with type parameters in scope. -/
def typeCode (depth : Nat) (generics : List String) : TypeRef → Except EmitError Code
  | .mk ns name args =>
    match (TypeRef.mk ns name []).builtin? with
    | some .str => .ok [.symbol "String"]
    | some .int => .ok [.symbol "i64"]
    | some .float => .ok [.symbol "f64"]
    | some .bool => .ok [.symbol "bool"]
    | some .any => .ok anyCode
    | some .list => do return .symbol "Vec" :: angles [← firstCode depth generics args]
    | some .option => do return .symbol "Option" :: angles [← firstCode depth generics args]
    | none => do
      let word ← identifier .type name
      if ns = "" ∧ generics.contains name then return [.symbol word]
      let base := s.named depth (.mk ns name []) word
      if args.isEmpty then return base
      return base ++ angles (← argCodes depth generics args)

def argCodes (depth : Nat) (generics : List String) : List TypeRef → Except EmitError (List Code)
  | [] => .ok []
  | t :: rest => do
    let first ← typeCode depth generics t
    return first :: (← argCodes depth generics rest)

/-- The argument of a builtin type. -/
def firstCode (depth : Nat) (generics : List String) : List TypeRef → Except EmitError Code
  | [] => .ok anyCode
  | t :: _ => typeCode depth generics t

end

mutual

/-- The namespaces that the spelling of a type refers to. -/
def references (generics : List String) : TypeRef → List Reference
  | .mk ns name args =>
    match (TypeRef.mk ns name []).builtin? with
    | some .list | some .option => firstReferences generics args
    | some _ => []
    | none =>
      if ns = "" ∧ generics.contains name then []
      else ⟨s.home (.mk ns name []), ns⟩ :: argReferences generics args

def argReferences (generics : List String) : List TypeRef → List Reference
  | [] => []
  | t :: rest => references generics t ++ argReferences generics rest

def firstReferences (generics : List String) : List TypeRef → List Reference
  | [] => []
  | t :: _ => references generics t

end

end Surroundings
end StagedMapping.Generated
