import StagedMapping.Name
import StagedMapping.Number.FloatText
import StagedMapping.Source.Expr
import StagedMapping.Text.Quoted

/-! The text of written types and expressions. An operand that is itself an operation or a
choice is put in parentheses, so the text reads back as the same tree whatever binds
tighter. -/
namespace StagedMapping.Source

mutual

@[simp] def TypeExpr.text : TypeExpr → String
  | .named _ path => Name.joinPath path
  | .applied _ path args => Name.joinPath path ++ "[" ++ TypeExpr.listText args ++ "]"

/-- Separated by commas. -/
@[simp] def TypeExpr.listText : List TypeExpr → String
  | [] => ""
  | [t] => t.text
  | t :: rest => t.text ++ ", " ++ TypeExpr.listText rest

end

def Literal.text : Literal → String
  | .int value => toString value.toInt
  | .float value => Number.render value
  | .string text => Text.quote text
  | .bool true => "true"
  | .bool false => "false"
  | .none => "none"

/-- Needs parentheses as an operand. -/
def Expr.isCompound : Expr → Bool
  | .binary .. | .choice .. | .unary .. => true
  | _ => false

/-- In parentheses if `compound`. -/
def enclose (compound : Bool) (text : String) : String :=
  if compound then "(" ++ text ++ ")" else text

mutual

@[simp] def Expr.text : Expr → String
  | .ident _ name => name
  | .literal _ value => value.text
  | .field _ base name => enclose base.isCompound base.text ++ "." ++ name
  | .method _ receiver name args =>
    enclose receiver.isCompound receiver.text ++ "." ++ name ++ "(" ++ Expr.listText args ++ ")"
  | .call _ callee args => enclose callee.isCompound callee.text ++ "(" ++ Expr.listText args ++ ")"
  | .choice _ value condition otherwise =>
    enclose value.isCompound value.text ++ " if " ++ enclose condition.isCompound condition.text ++
      " else " ++ enclose otherwise.isCompound otherwise.text
  | .binary _ lhs op rhs =>
    enclose lhs.isCompound lhs.text ++ " " ++ op.spelling ++ " " ++ enclose rhs.isCompound rhs.text
  | .unary _ op operand => op.spelling ++ enclose operand.isCompound operand.text
  | .construct _ type args => "new " ++ type.text ++ "(" ++ Argument.listText args ++ ")"
  | .paren _ inner => "(" ++ inner.text ++ ")"

/-- Separated by commas. -/
@[simp] def Expr.listText : List Expr → String
  | [] => ""
  | [e] => e.text
  | e :: rest => e.text ++ ", " ++ Expr.listText rest

@[simp] def Argument.text : Argument → String
  | .positional value => value.text
  | .named name value => name.text ++ " = " ++ value.text

/-- Separated by commas. -/
@[simp] def Argument.listText : List Argument → String
  | [] => ""
  | [a] => a.text
  | a :: rest => a.text ++ ", " ++ Argument.listText rest

end

end StagedMapping.Source
