import StagedMapping.Operation
import StagedMapping.Source.Span

/-! Written types and expressions. Every node knows where it is written. -/
namespace StagedMapping.Source

/-- A name and where it is written. -/
structure Ident where
  text : String
  span : Span
  deriving DecidableEq, Repr

/-- A written type: the path of a type, alone or applied to arguments. -/
inductive TypeExpr where
  | named (span : Span) (path : List String)
  | applied (span : Span) (path : List String) (args : List TypeExpr)
  deriving Repr

namespace TypeExpr

def span : TypeExpr → Span
  | named span _ => span
  | applied span .. => span

def path : TypeExpr → List String
  | named _ path => path
  | applied _ path _ => path

def args : TypeExpr → List TypeExpr
  | named .. => []
  | applied _ _ args => args

end TypeExpr

inductive Literal where
  | int (value : Int64)
  | float (value : Float)
  | string (text : String)
  | bool (value : Bool)
  | none
  deriving Repr

mutual

/-- A written expression. -/
inductive Expr where
  | ident (span : Span) (name : String)
  | literal (span : Span) (value : Literal)
  /-- Member access, `base.name`. -/
  | field (span : Span) (base : Expr) (name : String)
  | method (span : Span) (receiver : Expr) (name : String) (args : List Expr)
  | call (span : Span) (callee : Expr) (args : List Expr)
  /-- `value if condition else otherwise`. -/
  | choice (span : Span) (value condition otherwise : Expr)
  | binary (span : Span) (lhs : Expr) (op : BinaryOp) (rhs : Expr)
  | unary (span : Span) (op : UnaryOp) (operand : Expr)
  /-- `new type(args)`. -/
  | construct (span : Span) (type : TypeExpr) (args : List Argument)
  | paren (span : Span) (inner : Expr)

/-- An argument of a construction. Only named ones initialize a property. -/
inductive Argument where
  | positional (value : Expr)
  | named (name : Ident) (value : Expr)

end

deriving instance Repr for Expr, Argument

def Expr.span : Expr → Span
  | .ident span _ => span
  | .literal span _ => span
  | .field span .. => span
  | .method span .. => span
  | .call span .. => span
  | .choice span .. => span
  | .binary span .. => span
  | .unary span .. => span
  | .construct span .. => span
  | .paren span _ => span

namespace Argument

def value : Argument → Expr
  | positional value => value
  | named _ value => value

def name? : Argument → Option Ident
  | positional _ => none
  | named name _ => some name

end Argument
end StagedMapping.Source
