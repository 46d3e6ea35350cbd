import StagedMapping.Generated.PlanCode
import StagedMapping.Proofs.BracketedCode
import StagedMapping.Proofs.FloatBits
import StagedMapping.Proofs.Outcomes

/-! Plans as phrases. Each part of a plan has a phrase, and its code is what the phrase prints,
unless the part has a double that is not finite (`planCode_eq`). -/
namespace StagedMapping

/-! ### The doubles of a plan -/

mutual

/-- The doubles among the parts of a value. -/
def Value.floats : Value → List Float
  | .float x => [x]
  | .list items => itemFloats items
  | .record _ fields => fieldFloats fields
  | .none | .bool _ | .int _ | .str _ => []

def Value.itemFloats : List Value → List Float
  | [] => []
  | v :: rest => floats v ++ itemFloats rest

def Value.fieldFloats : List (String × Value) → List Float
  | [] => []
  | (_, v) :: rest => floats v ++ fieldFloats rest

end

mutual

/-- The doubles among the constants of a tree. -/
def Tree.floats : Tree → List Float
  | .const v => v.floats
  | .param _ => []
  | .member base _ => floats base
  | .call receiver _ args => floats receiver ++ argFloats args
  | .cond test yes no => floats test ++ (floats yes ++ floats no)
  | .binary _ lhs rhs => floats lhs ++ floats rhs
  | .unary _ operand => floats operand
  | .init _ bindings => bindingFloats bindings

def Tree.argFloats : List Tree → List Float
  | [] => []
  | t :: rest => floats t ++ argFloats rest

def Tree.bindingFloats : List (String × Tree) → List Float
  | [] => []
  | (_, t) :: rest => floats t ++ bindingFloats rest

end

mutual

def Residual.floats : Residual → List Float
  | .letIn _ _ value => value.elim [] Tree.floats
  | .assign _ value => value.floats
  | .branch test yes no => test.floats ++ (blockFloats yes ++ blockFloats no)
  | .eval value => value.floats

def Residual.blockFloats : List Residual → List Float
  | [] => []
  | s :: rest => floats s ++ blockFloats rest

end

def Lambda.floats (l : Lambda) : List Float := l.body.floats

def ParameterPlan.floats (p : ParameterPlan) : List Float := p.default.elim [] Tree.floats

/-- The doubles of the defaults, the residual statements and the stages. -/
def FactoryPlan.floats (f : FactoryPlan) : List Float :=
  f.parameters.flatMap ParameterPlan.floats ++ (Residual.blockFloats f.residuals ++
    (f.paramsStage.floats ++ (f.varsStage.elim [] Lambda.floats ++ f.finalStage.floats)))

/-- The doubles among the constants of a plan. -/
def MapPlan.floats (p : MapPlan) : List Float :=
  p.defaultStage.floats ++ p.factories.flatMap FactoryPlan.floats

namespace Generated
open Number

/-! ### Phrases -/

theorem Token.isPlain_string (s : String) : (Token.string s).isPlain = true := rfl

theorem Token.isPlain_natural (n : Nat) : (Token.natural n).isPlain = true := rfl

theorem Token.isPlain_float (x : Float) : (Token.float x).isPlain = true := rfl

/-- A word or a sign that is no bracket and no comma. -/
abbrev Sign := {text : String // (Token.symbol text).isPlain = true}

namespace Phrase

def sign (s : Sign) : Node := .leaf (.symbol s.1) s.2

/-- The nodes of a path after its first separator. -/
def pathNodes (path : List Sign) : List Node :=
  sign ⟨"mapforge_runtime", rfl⟩ :: path.flatMap fun s => [sign ⟨"::", rfl⟩, sign s]

/-- A path into the runtime library. -/
def path (names : List Sign) : Phrase := (sign ⟨"::", rfl⟩, pathNodes names)

/-- A path with arguments. -/
def called (names : List Sign) (args : List Phrase) : Phrase :=
  (sign ⟨"::", rfl⟩, pathNodes names ++ [.group .round args])

/-- A phrase with a method called on it. -/
def sent (receiver : Phrase) (method : Sign) (args : List Phrase) : Phrase :=
  (receiver.1, receiver.2 ++ [sign ⟨".", rfl⟩, sign method, .group .round args])

def string (s : String) : Phrase := (.leaf (.string s) (Token.isPlain_string s), [])

def owned (s : String) : Phrase := sent (string s) ⟨"to_string", rfl⟩ []

def sequence (items : List Phrase) : Phrase :=
  (sign ⟨"vec", rfl⟩, [sign ⟨"!", rfl⟩, .group .square items])

def pair (first second : Phrase) : Phrase := (.group .round [first, second], [])

def optional : Option Phrase → Phrase
  | none => (sign ⟨"None", rfl⟩, [])
  | some inner => (sign ⟨"Some", rfl⟩, [.group .round [inner]])

/-- A named field with its value. -/
def field (name : Sign) (value : Phrase) : Phrase :=
  (sign name, sign ⟨":", rfl⟩ :: value.1 :: value.2)

def withFields (names : List Sign) (fields : List Phrase) : Phrase :=
  (sign ⟨"::", rfl⟩, pathNodes names ++ [.group .brace fields])

/-- A sign before a size. -/
def signed (negative : Bool) (size : Token) (h : size.isPlain = true) : Phrase :=
  if negative then (sign ⟨"-", rfl⟩, [.leaf size h]) else (.leaf size h, [])

/-! ### What they print -/

theorem printAll_path (names : List Sign) :
    Node.printAll (names.flatMap fun s => [sign ⟨"::", rfl⟩, sign s]) =
      absolute (names.map (·.1)) := by
  induction names with
  | nil => rfl
  | cons s rest ih =>
    rw [List.flatMap_cons, Node.printAll_append, ih]
    rfl

@[simp]
theorem print_path (names : List Sign) : (path names).print = runtime (names.map (·.1)) := by
  rw [print, path, pathNodes, Node.printAll, printAll_path]
  rfl

@[simp]
theorem print_called (names : List Sign) (args : List Phrase) :
    (called names args).print = call (runtime (names.map (·.1))) (args.map print) := by
  rw [← print_path, print, called, Node.printAll_append, ← List.append_assoc, call]
  simp only [Node.printAll, Node.print, Node.printParts_eq, List.append_nil]
  rfl

@[simp]
theorem print_sent (receiver : Phrase) (method : Sign) (args : List Phrase) :
    (sent receiver method args).print = send receiver.print method.1 (args.map print) := by
  rw [print, sent, Node.printAll_append, ← List.append_assoc, send]
  simp only [Node.printAll, Node.print, Node.printParts_eq, List.append_nil]
  rfl

@[simp]
theorem print_string (s : String) : (string s).print = [.string s] := rfl

@[simp]
theorem print_owned (s : String) : (owned s).print = Generated.owned s := print_sent ..

@[simp]
theorem print_sequence (items : List Phrase) :
    (sequence items).print = Generated.sequence (items.map print) := by
  simp only [print, sequence, Node.printAll, Node.print, Node.printParts_eq, List.append_nil]
  rfl

@[simp]
theorem print_pair (first second : Phrase) :
    (pair first second).print = parens (commas [first.print, second.print]) := by
  simp only [print, pair, Node.printAll, Node.print, Node.printParts_eq, List.append_nil]
  rfl

@[simp]
theorem print_optional (inner : Option Phrase) :
    (optional inner).print = Generated.optional (inner.map print) := by
  cases inner with
  | none => rfl
  | some inner =>
    simp only [print, optional, Node.printAll, Node.print, Node.printParts_eq, List.append_nil]
    rfl

@[simp]
theorem print_field (name : Sign) (value : Phrase) :
    (field name value).print = .symbol name.1 :: .symbol ":" :: value.print := rfl

@[simp]
theorem print_withFields (names : List Sign) (fields : List Phrase) :
    (withFields names fields).print =
      runtime (names.map (·.1)) ++ braces (commas (fields.map print)) := by
  rw [← print_path, print, withFields, Node.printAll_append, ← List.append_assoc]
  simp only [Node.printAll, Node.print, Node.printParts_eq, List.append_nil]
  rfl

@[simp]
theorem print_signed (negative : Bool) (size : Token) (h : size.isPlain = true) :
    (signed negative size h).print = Generated.signed negative size := by
  cases negative <;> rfl

/-! ### Phrases of plans -/

def valueSign (kind : Sign) : List Sign := [⟨"Value", rfl⟩, kind]

def exprSign (kind : Sign) : List Sign := [⟨"Expr", rfl⟩, kind]

def stmtSign (kind : Sign) : List Sign := [⟨"Stmt", rfl⟩, kind]

def builtinSign (b : Builtin) : Sign := ⟨b.label, by cases b <;> rfl⟩

def binarySign (op : BinaryOp) : Sign := ⟨op.label, by cases op <;> rfl⟩

def unarySign (op : UnaryOp) : Sign := ⟨op.label, by cases op <;> rfl⟩

def boolSign (b : Bool) : Sign := ⟨if b then "true" else "false", by cases b <;> rfl⟩

mutual

def ofValue : Value → Phrase
  | .none => path (valueSign ⟨"Null", rfl⟩)
  | .bool b => called (valueSign ⟨"Bool", rfl⟩) [(sign (boolSign b), [])]
  | .int n =>
    called (valueSign ⟨"Int", rfl⟩) [signed (n.toInt < 0) (.natural n.toInt.natAbs) (Token.isPlain_natural _)]
  | .float x => called (valueSign ⟨"Float", rfl⟩) [signed (signBit x) (.float x.abs) (Token.isPlain_float _)]
  | .str s => called (valueSign ⟨"Str", rfl⟩) [owned s]
  | .list items => called (valueSign ⟨"List", rfl⟩) [sequence (ofValues items)]
  | .record typeName fields =>
    called (valueSign ⟨"Record", rfl⟩) [withFields [⟨"Record", rfl⟩]
      [field ⟨"type_name", rfl⟩ (owned typeName),
        field ⟨"fields", rfl⟩ (sequence (ofFields fields))]]

def ofValues : List Value → List Phrase
  | [] => []
  | v :: rest => ofValue v :: ofValues rest

def ofFields : List (String × Value) → List Phrase
  | [] => []
  | (name, v) :: rest => pair (owned name) (ofValue v) :: ofFields rest

end

mutual

def ofTree : Tree → Phrase
  | .const v => called (exprSign ⟨"Constant", rfl⟩) [ofValue v]
  | .param name => called (exprSign ⟨"param", rfl⟩) [string name]
  | .member base name => sent (ofTree base) ⟨"member", rfl⟩ [string name]
  | .call receiver method args =>
    sent (ofTree receiver) ⟨"call", rfl⟩
      [path [⟨"BuiltinMethodId", rfl⟩, builtinSign method], sequence (ofTrees args)]
  | .cond test yes no =>
    called (exprSign ⟨"conditional", rfl⟩) [ofTree test, ofTree yes, ofTree no]
  | .binary op lhs rhs =>
    called (exprSign ⟨"binary", rfl⟩)
      [path [⟨"BinaryOp", rfl⟩, binarySign op], ofTree lhs, ofTree rhs]
  | .unary op operand =>
    called (exprSign ⟨"unary", rfl⟩) [path [⟨"UnaryOp", rfl⟩, unarySign op], ofTree operand]
  | .init typeName bindings =>
    called (exprSign ⟨"member_init", rfl⟩)
      [string typeName, sequence (ofBindings bindings)]

def ofTrees : List Tree → List Phrase
  | [] => []
  | t :: rest => ofTree t :: ofTrees rest

def ofBindings : List (String × Tree) → List Phrase
  | [] => []
  | (name, t) :: rest => pair (owned name) (ofTree t) :: ofBindings rest

end

def ofLambda (l : Lambda) : Phrase :=
  called [⟨"Lambda", rfl⟩, ⟨"new", rfl⟩] [string l.param, ofTree l.body]

mutual

def ofResidual : Residual → Phrase
  | .letIn name type value =>
    withFields (stmtSign ⟨"Let", rfl⟩)
      [field ⟨"name", rfl⟩ (owned name), field ⟨"ty", rfl⟩ (optional (type.map owned)),
        field ⟨"value", rfl⟩ (optional (value.map ofTree))]
  | .assign name value => called (stmtSign ⟨"Assign", rfl⟩) [owned name, ofTree value]
  | .branch test yes no =>
    called (stmtSign ⟨"If", rfl⟩)
      [ofTree test, sequence (ofResiduals yes), sequence (ofResiduals no)]
  | .eval value => called (stmtSign ⟨"Eval", rfl⟩) [ofTree value]

def ofResiduals : List Residual → List Phrase
  | [] => []
  | s :: rest => ofResidual s :: ofResiduals rest

end

def ofShapeField (field : String × String) : Phrase :=
  called [⟨"ShapeField", rfl⟩, ⟨"new", rfl⟩] [string field.1, string field.2]

def ofShape (s : Shape) : Phrase :=
  withFields [⟨"RecordShape", rfl⟩]
    [field ⟨"type_name", rfl⟩ (owned s.typeName),
      field ⟨"fields", rfl⟩ (sequence (s.fields.map ofShapeField))]

def ofParameter (p : ParameterPlan) : Phrase :=
  withFields [⟨"ParameterPlan", rfl⟩]
    [field ⟨"name", rfl⟩ (owned p.name), field ⟨"ty", rfl⟩ (owned p.type),
      field ⟨"default", rfl⟩ (optional (p.default.map ofTree))]

def ofFactory (f : FactoryPlan) : Phrase :=
  withFields [⟨"FactoryPlan", rfl⟩]
    [field ⟨"declaration", rfl⟩ (owned f.declaration), field ⟨"digest", rfl⟩ (owned f.digest),
      field ⟨"parameters", rfl⟩ (sequence (f.parameters.map ofParameter)),
      field ⟨"residuals", rfl⟩ (sequence (ofResiduals f.residuals)),
      field ⟨"captures", rfl⟩ (sequence (f.captures.map ofShapeField)),
      field ⟨"params_shape", rfl⟩ (ofShape f.paramsShape),
      field ⟨"vars_shape", rfl⟩ (optional (f.varsShape.map ofShape)),
      field ⟨"params_stage", rfl⟩ (ofLambda f.paramsStage),
      field ⟨"vars_stage", rfl⟩ (optional (f.varsStage.map ofLambda)),
      field ⟨"final_stage", rfl⟩ (ofLambda f.finalStage)]

def ofPlan (p : MapPlan) : Phrase :=
  withFields [⟨"MapPlan", rfl⟩]
    [field ⟨"source", rfl⟩ (owned p.source), field ⟨"target", rfl⟩ (owned p.target),
      field ⟨"default_expression", rfl⟩ (ofLambda p.defaultStage),
      field ⟨"factories", rfl⟩ (sequence (p.factories.map ofFactory))]

/-! ### The code is what the phrase prints -/

/-- A result, unless one of the doubles is not finite. -/
def guarded {α : Type} (floats : List Float) (result : α) : Except Float α :=
  match floats.find? isUnbounded with
  | some x => .error x
  | none => .ok result

theorem guarded_nil {α : Type} (a : α) : guarded [] a = .ok a := rfl

/-- Results are guarded one after the other. -/
theorem guarded_bind {α β : Type} {k : α → Except Float β} {xs ys : List Float} {a : α} {b : β}
    (h : k a = guarded ys b) : (guarded xs a >>= k) = guarded (xs ++ ys) b := by
  unfold guarded at h ⊢
  rw [List.find?_append]
  cases xs.find? isUnbounded with
  | some x => rfl
  | none => exact h

theorem guarded_map {α β : Type} {f : α → β} (xs : List Float) (a : α) :
    (guarded xs a >>= fun a => pure (f a)) = guarded xs (f a) :=
  (guarded_bind (guarded_nil (f a))).trans (by rw [List.append_nil])

theorem floatCode_eq (x : Float) :
    floatCode x = guarded [x] (ofValue (.float x)).print := by
  have unbounded : (x.isNaN || x.isInf) = isUnbounded x := rfl
  rw [floatCode, unbounded, guarded]
  cases h : isUnbounded x with
  | true => simp [h]
  | false => simp [h, ofValue, valueSign]

mutual

theorem valueCode_eq : ∀ v : Value, valueCode v = guarded v.floats (ofValue v).print
  | .none => by simp [valueCode, Value.floats, ofValue, guarded_nil, valueSign]
  | .bool b => by
    simp [valueCode, Value.floats, ofValue, guarded_nil, valueSign]
    rfl
  | .int n => by simp [valueCode, Value.floats, ofValue, guarded_nil, valueSign]
  | .float x => by
    rw [valueCode, floatCode_eq]
    rfl
  | .str s => by simp [valueCode, Value.floats, ofValue, guarded_nil, valueSign]
  | .list items => by
    rw [valueCode, valueCodes_eq items, guarded_map]
    simp [Value.floats, ofValue, valueSign]
  | .record typeName fields => by
    rw [valueCode, fieldCodes_eq fields, guarded_map]
    simp [Value.floats, ofValue, valueSign, Generated.withFields]

theorem valueCodes_eq : ∀ vs : List Value,
    valueCodes vs = guarded (Value.itemFloats vs) ((ofValues vs).map print)
  | [] => rfl
  | v :: rest => by
    rw [valueCodes, valueCode_eq v, valueCodes_eq rest]
    exact guarded_bind (guarded_map _ _)

theorem fieldCodes_eq : ∀ fields : List (String × Value),
    fieldCodes fields = guarded (Value.fieldFloats fields) ((ofFields fields).map print)
  | [] => rfl
  | (name, v) :: rest => by
    rw [fieldCodes, valueCode_eq v, fieldCodes_eq rest, ofFields, List.map_cons, print_pair,
      print_owned]
    exact guarded_bind (guarded_map _ _)

end

mutual

theorem treeCode_eq : ∀ t : Tree, treeCode t = guarded t.floats (ofTree t).print
  | .const v => by
    rw [treeCode, valueCode_eq v, guarded_map, ofTree, print_called]
    rfl
  | .param name => by simp [treeCode, Tree.floats, ofTree, guarded_nil, exprSign]
  | .member base name => by
    rw [treeCode, treeCode_eq base, guarded_map, ofTree, print_sent]
    rfl
  | .call receiver method args => by
    rw [treeCode, treeCode_eq receiver, treeCodes_eq args, ofTree, print_sent]
    simp only [List.map_cons, List.map_nil, print_path, print_sequence]
    exact guarded_bind (guarded_map _ _)
  | .cond test yes no => by
    rw [treeCode, treeCode_eq test, treeCode_eq yes, treeCode_eq no, ofTree, print_called]
    exact guarded_bind (guarded_bind (guarded_map _ _))
  | .binary op lhs rhs => by
    rw [treeCode, treeCode_eq lhs, treeCode_eq rhs, ofTree, print_called]
    simp only [List.map_cons, List.map_nil, print_path]
    exact guarded_bind (guarded_map _ _)
  | .unary op operand => by
    rw [treeCode, treeCode_eq operand, guarded_map]
    simp [Tree.floats, ofTree, exprSign, unarySign]
  | .init typeName bindings => by
    rw [treeCode, bindingCodes_eq bindings, guarded_map]
    simp [Tree.floats, ofTree, exprSign]

theorem treeCodes_eq : ∀ ts : List Tree,
    treeCodes ts = guarded (Tree.argFloats ts) ((ofTrees ts).map print)
  | [] => rfl
  | t :: rest => by
    rw [treeCodes, treeCode_eq t, treeCodes_eq rest]
    exact guarded_bind (guarded_map _ _)

theorem bindingCodes_eq : ∀ bindings : List (String × Tree),
    bindingCodes bindings =
      guarded (Tree.bindingFloats bindings) ((ofBindings bindings).map print)
  | [] => rfl
  | (name, t) :: rest => by
    rw [bindingCodes, treeCode_eq t, bindingCodes_eq rest, ofBindings, List.map_cons, print_pair,
      print_owned]
    exact guarded_bind (guarded_map _ _)

end

theorem lambdaCode_eq (l : Lambda) : lambdaCode l = guarded l.floats (ofLambda l).print := by
  rw [lambdaCode, treeCode_eq, guarded_map, ofLambda, print_called]
  rfl

/-- The code of a part that may be absent. -/
theorem optionalCode_eq {α : Type} {f : α → Except Float Code} {floats : α → List Float}
    {phrase : α → Phrase} (h : ∀ a, f a = guarded (floats a) (phrase a).print) (o : Option α) :
    optionalCode f o = guarded (o.elim [] floats) (optional (o.map phrase)).print := by
  cases o with
  | none => rfl
  | some a =>
    rw [optionalCode, h, guarded_map, print_optional]
    rfl

mutual

theorem residualCode_eq : ∀ s : Residual,
    residualCode s = guarded s.floats (ofResidual s).print
  | .letIn name type value => by
    rw [residualCode, optionalCode_eq treeCode_eq, guarded_map]
    simp [Residual.floats, ofResidual, stmtSign, Generated.withFields, Function.comp_def]
  | .assign name value => by
    rw [residualCode, treeCode_eq, guarded_map]
    simp [Residual.floats, ofResidual, stmtSign]
  | .branch test yes no => by
    rw [residualCode, treeCode_eq, residualCodes_eq yes, residualCodes_eq no, ofResidual,
      print_called]
    simp only [List.map_cons, List.map_nil, print_sequence]
    exact guarded_bind (guarded_bind (guarded_map _ _))
  | .eval value => by
    rw [residualCode, treeCode_eq, guarded_map]
    simp [Residual.floats, ofResidual, stmtSign]

theorem residualCodes_eq : ∀ block : List Residual,
    residualCodes block = guarded (Residual.blockFloats block) ((ofResiduals block).map print)
  | [] => rfl
  | s :: rest => by
    rw [residualCodes, residualCode_eq s, residualCodes_eq rest]
    exact guarded_bind (guarded_map _ _)

end

/-- The codes of a list of parts. -/
theorem mapM_eq {α : Type} {f : α → Except Float Code} {floats : α → List Float}
    {phrase : α → Phrase} (h : ∀ a, f a = guarded (floats a) (phrase a).print) (as : List α) :
    as.mapM f = guarded (as.flatMap floats) ((as.map phrase).map print) := by
  induction as with
  | nil => rfl
  | cons a rest ih =>
    rw [List.mapM_cons, h, ih]
    exact guarded_bind (guarded_map _ _)

theorem print_shapeFields (fields : List (String × String)) :
    (sequence (fields.map ofShapeField)).print = shapeFields fields := by
  simp [shapeFields, ofShapeField, Function.comp_def]

theorem print_shape (s : Shape) : (ofShape s).print = shapeCode s := by
  rw [ofShape, print_withFields, shapeCode, Generated.withFields]
  simp only [List.map_cons, List.map_nil, print_field, print_owned, print_shapeFields]

theorem parameterCode_eq (p : ParameterPlan) :
    parameterCode p = guarded p.floats (ofParameter p).print := by
  rw [parameterCode, optionalCode_eq treeCode_eq, guarded_map]
  simp [ofParameter, ParameterPlan.floats, Generated.withFields]

theorem factoryCode_eq (f : FactoryPlan) :
    factoryCode f = guarded f.floats (ofFactory f).print := by
  rw [factoryCode, mapM_eq parameterCode_eq, residualCodes_eq, lambdaCode_eq,
    optionalCode_eq lambdaCode_eq, lambdaCode_eq, ofFactory, print_withFields]
  have varsShape : (optional (f.varsShape.map ofShape)).print =
      Generated.optional (f.varsShape.map shapeCode) := by
    cases f.varsShape with
    | none => rfl
    | some s => simp [print_shape]
  simp only [List.map_cons, List.map_nil, print_field]
  rw [print_shapeFields, print_shape, varsShape]
  simp only [print_owned, print_sequence]
  exact guarded_bind (guarded_bind (guarded_bind (guarded_bind (guarded_map _ _))))

/-- The code of a plan is what its phrase prints, unless a double of the plan is not finite. -/
theorem planCode_eq (p : MapPlan) : planCode p = guarded p.floats (ofPlan p).print := by
  rw [planCode, lambdaCode_eq, mapM_eq factoryCode_eq, ofPlan, print_withFields]
  simp only [List.map_cons, List.map_nil, print_field, print_owned, print_sequence]
  exact guarded_bind (guarded_map _ _)

end Phrase
end Generated
end StagedMapping
