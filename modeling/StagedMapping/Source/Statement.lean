import StagedMapping.Source.Expr

/-! Statements of method bodies. -/
namespace StagedMapping.Source

/-- One local of a `let`. -/
structure Binding where
  name : Ident
  type : Option TypeExpr
  value : Option Expr
  deriving Repr

inductive Statement where
  | letIn (span : Span) (bindings : List Binding)
  | assign (span : Span) (target : Ident) (value : Expr)
  | expr (span : Span) (value : Expr)
  /-- An `if` with the `elif` branches after it and, possibly, an `else`. -/
  | branch (span : Span) (condition : Expr) (body : List Statement)
      (others : List (Expr × List Statement)) (otherwise : Option (List Statement))
  | loop (span : Span) (condition : Expr) (body : List Statement)
  | ret (span : Span) (value : Option Expr)
  | pass (span : Span)
  deriving Repr

def Statement.span : Statement → Span
  | .letIn span _ => span
  | .assign span .. => span
  | .expr span _ => span
  | .branch span .. => span
  | .loop span .. => span
  | .ret span _ => span
  | .pass span => span

end StagedMapping.Source
