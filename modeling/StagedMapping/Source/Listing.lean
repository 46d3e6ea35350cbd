import StagedMapping.Listing
import StagedMapping.Source.Module
import StagedMapping.Source.Token

/-! Listings of tokens and of syntax trees, for looking at what a source is read as. -/
namespace StagedMapping

def Span.listing (s : Span) : Listing :=
  .fields "Span" [("start", .leaf (toString s.start)), ("end", .leaf (toString s.stop))]

def TokenKind.listing : TokenKind → Listing
  | .keyword k => .tuple "Keyword" [.leaf k.label]
  | .operator o => .tuple "Operator" [.leaf o.label]
  | .punctuation p => .tuple "Punctuation" [.leaf p.label]
  | .ident name => .tuple "Ident" [.quoted name]
  | .int value => .tuple "Int" [.leaf (toString value.toInt)]
  | .float value => .tuple "Float" [.leaf (Number.render value)]
  | .string text => .tuple "String" [.quoted text]
  | .newline => .leaf "Newline"
  | .indent => .leaf "Indent"
  | .dedent => .leaf "Dedent"
  | .eof => .leaf "Eof"

def Token.listing (t : Token) : Listing :=
  .fields "Token" [("kind", t.kind.listing), ("span", t.span.listing)]

namespace Source

/-! ### Parts -/

/-- A part with its place. -/
def located (span : Span) (part : Listing) : Listing :=
  .fields "Spanned" [("node", part), ("span", span.listing)]

/-- A variant that holds one record of the given fields. -/
def variant (name record : String) (entries : List (String × Listing)) : Listing :=
  .tuple name [.fields record entries]

def names (path : List String) : Listing := .list (path.map .quoted)

def Ident.listing (i : Ident) : Listing := located i.span (.quoted i.text)

/-! ### Types and expressions -/

mutual

def TypeExpr.listing : TypeExpr → Listing
  | .named span path => located span (.tuple "Named" [names path])
  | .applied span path args =>
    located span (.tuple "Generic" [names path, .list (TypeExpr.listings args)])

def TypeExpr.listings : List TypeExpr → List Listing
  | [] => []
  | t :: rest => t.listing :: TypeExpr.listings rest

end

def Literal.listing : Literal → Listing
  | .int value => .tuple "Int" [.leaf (toString value.toInt)]
  | .float value => .tuple "Float" [.leaf (Number.render value)]
  | .string text => .tuple "String" [.quoted text]
  | .bool value => .tuple "Bool" [.leaf (if value then "true" else "false")]
  | .none => .leaf "None"

mutual

def Expr.listing : Expr → Listing
  | .ident span name => located span (.tuple "Ident" [.quoted name])
  | .literal span value => located span (.tuple "Literal" [value.listing])
  | .field span base name => located span (.tuple "Field" [base.listing, .quoted name])
  | .method span receiver name args =>
    located span (.tuple "MethodCall" [receiver.listing, .quoted name, .list (Expr.listings args)])
  | .call span callee args =>
    located span (.tuple "Call" [callee.listing, .list (Expr.listings args)])
  | .choice span value condition otherwise =>
    located span (variant "If" "IfExpr" [("condition", condition.listing),
      ("then_branch", value.listing), ("else_branch", otherwise.listing)])
  | .binary span lhs op rhs =>
    located span (.tuple "Binary" [lhs.listing, .leaf op.label, rhs.listing])
  | .unary span op operand => located span (.tuple "Unary" [.leaf op.label, operand.listing])
  | .construct span type args =>
    located span (variant "New" "NewExpr"
      [("ty", type.listing), ("args", .list (Argument.listings args))])
  | .paren span inner => located span (.tuple "Paren" [inner.listing])

def Expr.listings : List Expr → List Listing
  | [] => []
  | e :: rest => e.listing :: Expr.listings rest

def Argument.listing : Argument → Listing
  | .positional value => .fields "NewArg" [("name", .leaf "None"), ("value", value.listing)]
  | .named name value =>
    .fields "NewArg" [("name", .tuple "Some" [name.listing]), ("value", value.listing)]

def Argument.listings : List Argument → List Listing
  | [] => []
  | a :: rest => a.listing :: Argument.listings rest

end

/-! ### Statements -/

def Binding.listing (b : Binding) : Listing :=
  .fields "Binding" [("name", b.name.listing), ("ty", .optional TypeExpr.listing b.type),
    ("value", .optional Expr.listing b.value)]

mutual

def Statement.listing : Statement → Listing
  | .letIn span bindings =>
    located span (variant "Let" "LetStmt" [("bindings", .list (bindings.map Binding.listing))])
  | .assign span target value =>
    located span (variant "Assign" "AssignStmt"
      [("target", target.listing), ("value", value.listing)])
  | .expr span value => located span (.tuple "Expr" [value.listing])
  | .branch span condition body others otherwise =>
    located span (variant "If" "IfStmt" [("condition", condition.listing),
      ("then_body", .list (blockListings body)), ("elif_branches", .list (othersListings others)),
      ("else_body", otherwiseListing otherwise)])
  | .loop span condition body =>
    located span (variant "While" "WhileStmt"
      [("condition", condition.listing), ("body", .list (blockListings body))])
  | .ret span value => located span (.tuple "Return" [.optional Expr.listing value])
  | .pass span => located span (.leaf "Pass")

def blockListings : List Statement → List Listing
  | [] => []
  | s :: rest => s.listing :: blockListings rest

def othersListings : List (Expr × List Statement) → List Listing
  | [] => []
  | (condition, body) :: rest =>
    .tuple "" [condition.listing, .list (blockListings body)] :: othersListings rest

def otherwiseListing : Option (List Statement) → Listing
  | none => .leaf "None"
  | some body => .tuple "Some" [.list (blockListings body)]

end

/-! ### Declarations -/

def Decorator.listing (d : Decorator) : Listing :=
  located d.span (.fields "Decorator"
    [("name", .quoted d.name), ("args", .list (d.args.map TypeExpr.listing))])

def accessLabel : Access → String
  | .readWrite => "ReadWrite"
  | .readOnly => "ReadOnly"
  | .writeOnly => "WriteOnly"

def Field.listing (f : Field) : Listing :=
  located f.span (.fields "FieldDecl" [("access", .leaf (accessLabel f.access)),
    ("name", .quoted f.name), ("ty", f.type.listing)])

def Param.listing (p : Param) : Listing :=
  located p.span (.fields "Param" [("name", .quoted p.name), ("ty", p.type.listing),
    ("default", .optional Expr.listing p.default)])

def Method.listing (m : Method) : Listing :=
  located m.span (.fields "MethodDecl" [("name", .quoted m.name),
    ("params", .list (m.params.map Param.listing)),
    ("return_type", .optional TypeExpr.listing m.returns),
    ("body", .optional (fun b => .list (blockListings b)) m.body)])

def Class.listing (c : Class) : Listing :=
  variant "Class" "ClassDecl" [("decorators", .list (c.decorators.map Decorator.listing)),
    ("name", .quoted c.name), ("type_params", names c.typeParams),
    ("fields", .list (c.fields.map Field.listing)),
    ("methods", .list (c.methods.map Method.listing))]

def importListing (path : List String) (kind : Listing) : Listing :=
  variant "Import" "ImportDecl" [("path", names path), ("kind", kind)]

def Declaration.listing : Declaration → Listing
  | .space span path => located span (variant "Namespace" "NamespaceDecl" [("path", names path)])
  | .importType span path rename =>
    located span (importListing path (.fields "Item" [("alias", .optional .quoted rename)]))
  | .importAll span path => located span (importListing path (.leaf "Glob"))
  | .cls c => located c.span c.listing
  | .doc span text => located span (.tuple "Docstring" [.quoted text])

def Module.listing (m : Module) : Listing :=
  .fields "Program" [("declarations", .list (m.declarations.map Declaration.listing))]

end Source
end StagedMapping
