import StagedMapping.Compilation

/-! The types of expressions, as far as they show: literals, names with known types, their
properties, methods with known results and operators. Everything else is of type any. -/
namespace StagedMapping

/-- What inference knows: the pass, the source an expression is in, the type parameters in
scope, and the types of names, the innermost first. -/
structure TypeScope where
  compilation : Compilation
  source : Nat
  generics : List String
  locals : List (String × TypeRef)

namespace TypeScope

def bind (s : TypeScope) (name : String) (type : TypeRef) : TypeScope :=
  { s with locals := (name, type) :: s.locals }

/-- A type that both types fit. -/
def join (a b : TypeRef) : TypeRef :=
  if a.same b then a
  else if a.isNumeric && b.isNumeric then .builtin .float
  else .any

def ofLiteral : Source.Literal → TypeRef
  | .int _ => .builtin .int
  | .float _ => .builtin .float
  | .string _ => .builtin .str
  | .bool _ => .builtin .bool
  | .none => .any

/-- The result of an operation on operands of two types. -/
def ofBinary (op : BinaryOp) (a b : TypeRef) : TypeRef :=
  if op.isBoolean then .builtin .bool
  else if op = .add ∧ (a.isStr || b.isStr) then .builtin .str
  else if a.isNumeric && b.isNumeric then join a b
  else .any

/-- The result of a method on a receiver. -/
def ofMethod (name : String) (receiver : TypeRef) : TypeRef :=
  match Builtin.ofSpelling? name with
  | none => .any
  | some b =>
    match b.returns with
    | .str => .builtin .str
    | .int => .builtin .int
    | .bool => .builtin .bool
    | .receiver => receiver

def infer (s : TypeScope) : Source.Expr → TypeRef
  | .literal _ l => ofLiteral l
  | .ident _ name => (Bindings.get? s.locals name).getD .any
  | .field _ base name => (s.compilation.propertyType? (s.infer base) name).getD .any
  | .method _ receiver name _ => ofMethod name (s.infer receiver)
  | .call .. => .any
  | .choice _ value _ otherwise => join (s.infer value) (s.infer otherwise)
  | .binary _ lhs op rhs => ofBinary op (s.infer lhs) (s.infer rhs)
  | .unary _ .not _ => .builtin .bool
  | .unary _ .neg operand => s.infer operand
  | .construct _ type _ => (s.compilation.resolve s.source s.generics type).value
  | .paren _ inner => s.infer inner

/-- The type of a local: as written, else as its value shows. -/
def ofBinding (s : TypeScope) (b : Source.Binding) : TypeRef :=
  match b.type, b.value with
  | some type, _ => (s.compilation.resolve s.source s.generics type).value
  | none, some value => s.infer value
  | none, none => .any

end TypeScope
end StagedMapping
