import StagedMapping.Operation
import StagedMapping.Value
import StagedMapping.Vocabulary.Builtin

/-! Expression trees: what a mapping is lowered to. A tree is data, so a stage can be
looked at and changed before it runs. `Tree.parameters` are its free names,
`Tree.substitute` puts trees in their place, and a `Lambda` binds one name. -/
namespace StagedMapping

inductive Tree where
  | const (value : Value)
  /-- A free name. -/
  | param (name : String)
  | member (base : Tree) (name : String)
  | call (receiver : Tree) (method : Builtin) (args : List Tree)
  | cond (test yes no : Tree)
  | binary (op : BinaryOp) (lhs rhs : Tree)
  | unary (op : UnaryOp) (operand : Tree)
  /-- A record built from a binding per field. -/
  | init (typeName : String) (bindings : List (String × Tree))
  deriving Repr

namespace Tree

/-! ### Text -/

mutual

def text : Tree → String
  | const v => v.text
  | param name => name
  | member base name => text base ++ "." ++ name
  | call receiver method args =>
    text receiver ++ "." ++ method.spelling ++ "(" ++ String.intercalate ", " (argTexts args) ++ ")"
  | cond test yes no => "(" ++ text test ++ " ? " ++ text yes ++ " : " ++ text no ++ ")"
  | binary op lhs rhs => "(" ++ text lhs ++ " " ++ op.symbol ++ " " ++ text rhs ++ ")"
  | unary op operand => op.symbol ++ text operand
  | init typeName bindings => Value.braces ("new " ++ typeName) (bindingTexts bindings)

def argTexts : List Tree → List String
  | [] => []
  | t :: rest => text t :: argTexts rest

def bindingTexts : List (String × Tree) → List String
  | [] => []
  | (name, t) :: rest => (name ++ " = " ++ text t) :: bindingTexts rest

end

/-! ### Free names -/

mutual

/-- Every use of a free name, from left to right. -/
def reads : Tree → List String
  | const _ => []
  | param name => [name]
  | member base _ => reads base
  | call receiver _ args => reads receiver ++ argReads args
  | cond test yes no => reads test ++ reads yes ++ reads no
  | binary _ lhs rhs => reads lhs ++ reads rhs
  | unary _ operand => reads operand
  | init _ bindings => bindingReads bindings

def argReads : List Tree → List String
  | [] => []
  | t :: rest => reads t ++ argReads rest

def bindingReads : List (String × Tree) → List String
  | [] => []
  | (_, t) :: rest => reads t ++ bindingReads rest

end

/-- The free names, each where it occurs first. -/
def parameters (t : Tree) : List String :=
  t.reads.foldl (fun seen name => if seen.contains name then seen else seen ++ [name]) []

/-! ### Substitution -/

mutual

/-- The tree with `replace name` in the place of each free name that has one. -/
def substitute (replace : String → Option Tree) : Tree → Tree
  | const v => const v
  | param name => (replace name).getD (param name)
  | member base name => member (substitute replace base) name
  | call receiver method args =>
    call (substitute replace receiver) method (substituteArgs replace args)
  | cond test yes no =>
    cond (substitute replace test) (substitute replace yes) (substitute replace no)
  | binary op lhs rhs => binary op (substitute replace lhs) (substitute replace rhs)
  | unary op operand => unary op (substitute replace operand)
  | init typeName bindings => init typeName (substituteBindings replace bindings)

def substituteArgs (replace : String → Option Tree) : List Tree → List Tree
  | [] => []
  | t :: rest => substitute replace t :: substituteArgs replace rest

def substituteBindings (replace : String → Option Tree) :
    List (String × Tree) → List (String × Tree)
  | [] => []
  | (name, t) :: rest => (name, substitute replace t) :: substituteBindings replace rest

end

end Tree

/-- A function of one argument, as a tree with one name bound. -/
structure Lambda where
  param : String
  body : Tree
  deriving Repr

def Lambda.text (l : Lambda) : String := l.param ++ " => " ++ l.body.text

end StagedMapping
