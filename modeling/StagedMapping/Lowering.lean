import StagedMapping.Compilation
import StagedMapping.Diagnostic
import StagedMapping.Residual

/-! Lowering of expressions to trees, and of statements to residuals. What a tree
cannot express is noted and becomes the constant none, so that the rest is lowered all
the same. A name has to be bound where it is used; a `let` binds its name for the rest of
its block. -/
namespace StagedMapping

/-- The place of a lowering. -/
structure Lowering where
  compilation : Compilation
  site : Site
  generics : List String

namespace Lowering
variable (l : Lowering)

/-- What a written type refers to. -/
def typeOf (t : Source.TypeExpr) : TypeRef :=
  (l.compilation.resolve l.site.source l.generics t).value

def inexpressible (text : String) (why : Inexpressible) (span : Span) : Diagnostic :=
  ⟨.inexpressible text why, l.site, span⟩

/-- The note that an expression has no tree. -/
def reject (e : Source.Expr) (why : Inexpressible) : Noted Diagnostic Tree :=
  ⟨.const .none, [l.inexpressible e.text why e.span]⟩

def ofLiteral : Source.Literal → Value
  | .int n => .int n
  | .float x => .float x
  | .string s => .str s
  | .bool b => .bool b
  | .none => .none

mutual

/-- The tree of an expression in which the names `bound` may be read. -/
def expr (bound : List String) : Source.Expr → Noted Diagnostic Tree
  | .literal _ value => pure (.const (ofLiteral value))
  | .ident span name =>
    if bound.contains name then pure (.param name)
    else l.reject (.ident span name) (.unbound name)
  | .field _ base name => do return .member (← expr bound base) name
  | .method span receiver name args =>
    match Builtin.ofSpelling? name with
    | none => l.reject (.method span receiver name args) (.unknownMethod name)
    | some b =>
      if args.length ≠ b.arity then
        l.reject (.method span receiver name args) (.argumentCount name b.arity args.length)
      else do
        let r ← expr bound receiver
        return .call r b (← exprs bound args)
  | .call span callee args => l.reject (.call span callee args) .functionCall
  | .choice _ value condition otherwise => do
    let test ← expr bound condition
    let yes ← expr bound value
    return .cond test yes (← expr bound otherwise)
  | .binary _ lhs op rhs => do
    let a ← expr bound lhs
    return .binary op a (← expr bound rhs)
  | .unary _ op operand => do return .unary op (← expr bound operand)
  | .construct span type args =>
    if args.all (·.name?.isSome) then do
      return .init (l.typeOf type).qualified (← arguments bound args)
    else l.reject (.construct span type args) .positionalArgument
  | .paren _ inner => expr bound inner

def exprs (bound : List String) : List Source.Expr → Noted Diagnostic (List Tree)
  | [] => pure []
  | e :: rest => do
    let t ← expr bound e
    return t :: (← exprs bound rest)

/-- The bindings of named arguments. -/
def arguments (bound : List String) : List Source.Argument → Noted Diagnostic (List (String × Tree))
  | [] => pure []
  | .positional _ :: rest => arguments bound rest
  | .named name value :: rest => do
    let t ← expr bound value
    return (name.text, t) :: (← arguments bound rest)

end

/-- The tree of an expression that may be absent. -/
def optional (bound : List String) : Option Source.Expr → Noted Diagnostic (Option Tree)
  | none => pure none
  | some e => do return some (← expr l bound e)

/-- The residuals of locals, and the names bound after them. -/
def bindings (bound : List String) :
    List Source.Binding → Noted Diagnostic (List Residual × List String)
  | [] => pure ([], bound)
  | b :: rest => do
    let value ← l.optional bound b.value
    let (more, after) ← bindings (b.name.text :: bound) rest
    return (.letIn b.name.text (b.type.map fun t => (l.typeOf t).text) value :: more, after)

/-- The residual of an assignment. -/
def assignment (bound : List String) (target : Source.Ident) (value : Source.Expr) :
    Noted Diagnostic (List Residual) :=
  if bound.contains target.text then do
    return [.assign target.text (← l.expr bound value)]
  else
    ⟨[], [l.inexpressible target.text (.unbound target.text) target.span]⟩

mutual

/-- The residuals of a statement, and the names bound after it. -/
def statement (bound : List String) :
    Source.Statement → Noted Diagnostic (List Residual × List String)
  | .letIn _ bs => l.bindings bound bs
  | .assign _ target value => do return (← l.assignment bound target value, bound)
  | .expr _ value => do return ([.eval (← l.expr bound value)], bound)
  | .branch _ condition body others last => do
    let test ← l.expr bound condition
    let yes ← block bound body
    let no ← branches bound (← otherwise bound last) others
    return ([.branch test yes no], bound)
  | .loop span .. => ⟨([], bound), [⟨.controlFlow .loop, l.site, span⟩]⟩
  | .ret span _ => ⟨([], bound), [⟨.controlFlow .earlyReturn, l.site, span⟩]⟩
  | .pass _ => pure ([], bound)

/-- The residuals of a block, whose locals end with it. -/
def block (bound : List String) : List Source.Statement → Noted Diagnostic (List Residual)
  | [] => pure []
  | s :: rest => do
    let (first, after) ← statement bound s
    return first ++ (← block after rest)

/-- Branches as nested alternatives, the last of them first. -/
def branches (bound : List String) (last : List Residual) :
    List (Source.Expr × List Source.Statement) → Noted Diagnostic (List Residual)
  | [] => pure last
  | (condition, body) :: rest => do
    let no ← branches bound last rest
    let test ← l.expr bound condition
    return [.branch test (← block bound body) no]

def otherwise (bound : List String) :
    Option (List Source.Statement) → Noted Diagnostic (List Residual)
  | none => pure []
  | some body => block bound body

end

end Lowering
end StagedMapping
