import StagedMapping.Generated.Token
import StagedMapping.Plan

/-! Plans in generated code, as calls that build them. Everything of a plan is written down,
so that generated code holds the same plan as data. Only a number that is not finite has no
written form; it is what a failure returns. -/
namespace StagedMapping.Generated

/-! ### Values -/

/-- A sign before a size. -/
def signed (negative : Bool) (size : Token) : Code :=
  if negative then [.symbol "-", size] else [size]

def floatCode (x : Float) : Except Float Code :=
  if x.isNaN || x.isInf then .error x
  else .ok (call (runtime ["Value", "Float"]) [signed (Number.signBit x) (.float x.abs)])

mutual

def valueCode : Value → Except Float Code
  | .none => .ok (runtime ["Value", "Null"])
  | .bool b => .ok (call (runtime ["Value", "Bool"]) [[.symbol (if b then "true" else "false")]])
  | .int n =>
    .ok (call (runtime ["Value", "Int"]) [signed (n.toInt < 0) (.natural n.toInt.natAbs)])
  | .float x => floatCode x
  | .str s => .ok (call (runtime ["Value", "Str"]) [owned s])
  | .list items => do return call (runtime ["Value", "List"]) [sequence (← valueCodes items)]
  | .record typeName fields => do
    return call (runtime ["Value", "Record"]) [withFields (runtime ["Record"])
      [("type_name", owned typeName), ("fields", sequence (← fieldCodes fields))]]

def valueCodes : List Value → Except Float (List Code)
  | [] => .ok []
  | v :: rest => do
    let first ← valueCode v
    return first :: (← valueCodes rest)

def fieldCodes : List (String × Value) → Except Float (List Code)
  | [] => .ok []
  | (name, v) :: rest => do
    let value ← valueCode v
    return parens (commas [owned name, value]) :: (← fieldCodes rest)

end

/-! ### Trees -/

mutual

def treeCode : Tree → Except Float Code
  | .const v => do return call (runtime ["Expr", "Constant"]) [← valueCode v]
  | .param name => .ok (call (runtime ["Expr", "param"]) [[.string name]])
  | .member base name => do return send (← treeCode base) "member" [[.string name]]
  | .call receiver method args => do
    let r ← treeCode receiver
    return send r "call" [runtime ["BuiltinMethodId", method.label], sequence (← treeCodes args)]
  | .cond test yes no => do
    let test ← treeCode test
    let yes ← treeCode yes
    return call (runtime ["Expr", "conditional"]) [test, yes, ← treeCode no]
  | .binary op lhs rhs => do
    let lhs ← treeCode lhs
    return call (runtime ["Expr", "binary"])
      [runtime ["BinaryOp", op.label], lhs, ← treeCode rhs]
  | .unary op operand => do
    return call (runtime ["Expr", "unary"]) [runtime ["UnaryOp", op.label], ← treeCode operand]
  | .init typeName bindings => do
    return call (runtime ["Expr", "member_init"])
      [[.string typeName], sequence (← bindingCodes bindings)]

def treeCodes : List Tree → Except Float (List Code)
  | [] => .ok []
  | t :: rest => do
    let first ← treeCode t
    return first :: (← treeCodes rest)

def bindingCodes : List (String × Tree) → Except Float (List Code)
  | [] => .ok []
  | (name, t) :: rest => do
    let value ← treeCode t
    return parens (commas [owned name, value]) :: (← bindingCodes rest)

end

def lambdaCode (l : Lambda) : Except Float Code := do
  return call (runtime ["Lambda", "new"]) [[.string l.param], ← treeCode l.body]

/-- The code of a part that may be absent. -/
def optionalCode {α : Type} (f : α → Except Float Code) : Option α → Except Float Code
  | none => .ok (optional none)
  | some a => do return optional (some (← f a))

/-! ### Residuals -/

mutual

def residualCode : Residual → Except Float Code
  | .letIn name type value => do
    return withFields (runtime ["Stmt", "Let"])
      [("name", owned name), ("ty", optional (type.map owned)),
        ("value", ← optionalCode treeCode value)]
  | .assign name value => do
    return call (runtime ["Stmt", "Assign"]) [owned name, ← treeCode value]
  | .branch test yes no => do
    let test ← treeCode test
    let yes ← residualCodes yes
    return call (runtime ["Stmt", "If"]) [test, sequence yes, sequence (← residualCodes no)]
  | .eval value => do return call (runtime ["Stmt", "Eval"]) [← treeCode value]

def residualCodes : List Residual → Except Float (List Code)
  | [] => .ok []
  | s :: rest => do
    let first ← residualCode s
    return first :: (← residualCodes rest)

end

/-! ### Plans -/

def shapeFields (fields : List (String × String)) : Code :=
  sequence (fields.map fun (name, type) =>
    call (runtime ["ShapeField", "new"]) [[.string name], [.string type]])

def shapeCode (s : Shape) : Code :=
  withFields (runtime ["RecordShape"])
    [("type_name", owned s.typeName), ("fields", shapeFields s.fields)]

def parameterCode (p : ParameterPlan) : Except Float Code := do
  return withFields (runtime ["ParameterPlan"])
    [("name", owned p.name), ("ty", owned p.type),
      ("default", ← optionalCode treeCode p.default)]

def factoryCode (f : FactoryPlan) : Except Float Code := do
  let parameters ← f.parameters.mapM parameterCode
  let residuals ← residualCodes f.residuals
  let first ← lambdaCode f.paramsStage
  let second ← optionalCode lambdaCode f.varsStage
  let last ← lambdaCode f.finalStage
  return withFields (runtime ["FactoryPlan"])
    [("declaration", owned f.declaration), ("digest", owned f.digest),
      ("parameters", sequence parameters), ("residuals", sequence residuals),
      ("captures", shapeFields f.captures), ("params_shape", shapeCode f.paramsShape),
      ("vars_shape", optional (f.varsShape.map shapeCode)), ("params_stage", first),
      ("vars_stage", second), ("final_stage", last)]

def planCode (p : MapPlan) : Except Float Code := do
  let default ← lambdaCode p.defaultStage
  return withFields (runtime ["MapPlan"])
    [("source", owned p.source), ("target", owned p.target), ("default_expression", default),
      ("factories", sequence (← p.factories.mapM factoryCode))]

end StagedMapping.Generated
