import StagedMapping.Proofs.LoweringScope

/-! Bodies as they are written. Expressions have a value in a scope and statements change the
scope, without a lowering in between; there is one flat scope, also inside branches. What
cannot be lowered has no value. Where the lowering of an expression leaves no note it has the
same value (`Lowering.expr_eval`). -/
namespace StagedMapping

/-! ### Direct evaluation -/

namespace Source

section
variable (types : TypeExpr → TypeRef) (scope : Scope)

mutual

/-- The value of an expression; a function that is called is not bound. -/
def Expr.eval : Expr → Eval Value
  | .ident _ name =>
    match Bindings.get? scope name with
    | some v => .ok v
    | none => .error (.unbound name)
  | .literal _ value => .ok (Lowering.ofLiteral value)
  | .field _ base name => do (← base.eval).member name
  | .method _ receiver name args =>
    match Builtin.ofSpelling? name with
    | none => .error (.unbound name)
    | some b => do
      let v ← receiver.eval
      v.invoke b (← Expr.listEval args)
  | .call _ callee _ => .error (.unbound callee.text)
  | .choice _ value condition otherwise => do
    if ← (← condition.eval).expectBool "conditional test" then value.eval else otherwise.eval
  | .binary _ lhs .and rhs => do
    if ← (← lhs.eval).expectBool "'&&'" then return .bool (← (← rhs.eval).expectBool "'&&'")
    else return .bool false
  | .binary _ lhs .or rhs => do
    if ← (← lhs.eval).expectBool "'||'" then return .bool true
    else return .bool (← (← rhs.eval).expectBool "'||'")
  | .binary _ lhs op rhs => do
    let a ← lhs.eval
    let b ← rhs.eval
    a.operate op b
  | .unary _ .neg operand => do (← operand.eval).negate
  | .unary _ .not operand => do return .bool (!(← (← operand.eval).expectBool "'!'"))
  | .construct _ type args => do
    return .record (types type).qualified (← Argument.listEval [] args)
  | .paren _ inner => inner.eval

def Expr.listEval : List Expr → Eval (List Value)
  | [] => .ok []
  | e :: rest => do
    let v ← e.eval
    return v :: (← Expr.listEval rest)

/-- The fields of a construction, set one after the other. -/
def Argument.listEval (fields : List (String × Value)) :
    List Argument → Eval (List (String × Value))
  | [] => .ok fields
  | .positional _ :: rest => Argument.listEval fields rest
  | .named name value :: rest => do
    let v ← value.eval
    Argument.listEval (Bindings.set fields name.text v) rest

end

end

section
variable (types : TypeExpr → TypeRef)

/-- The value that a local starts with. -/
def Binding.initial (scope : Scope) (b : Binding) : Eval Value :=
  match b.value with
  | some e => e.eval types scope
  | none => .ok .none

/-- A declared type may make a float of an integer. -/
def Binding.coerce (b : Binding) (v : Value) : Value :=
  match b.type with
  | some t => v.coerce (types t).text
  | none => v

def Binding.exec (scope : Scope) (b : Binding) : Eval Scope := do
  return Bindings.set scope b.name.text (b.coerce types (← b.initial types scope))

mutual

/-- The scope after a statement. A loop or a return inside a body has none. -/
def Statement.exec (scope : Scope) : Statement → Eval Scope
  | .letIn _ bindings => bindings.foldlM (Binding.exec types) scope
  | .assign _ target value => do Residual.change scope target.text (← value.eval types scope)
  | .expr _ value => do
    let _ ← value.eval types scope
    return scope
  | .branch _ condition body others last => do
    match ← condition.eval types scope with
    | .bool true => blockExec scope body
    | .bool false => othersExec scope (otherwiseExec scope last) others
    | v => v.mismatch "if condition" "bool"
  | .loop .. => .error (.unbound "loop")
  | .ret .. => .error (.unbound "return")
  | .pass _ => .ok scope

def blockExec (scope : Scope) : List Statement → Eval Scope
  | [] => .ok scope
  | s :: rest => do blockExec (← s.exec scope) rest

/-- The first alternative whose condition holds, else the last. -/
def othersExec (scope : Scope) (last : Eval Scope) : List (Expr × List Statement) → Eval Scope
  | [] => last
  | (condition, body) :: rest => do
    match ← condition.eval types scope with
    | .bool true => blockExec scope body
    | .bool false => othersExec scope last rest
    | v => v.mismatch "if condition" "bool"

def otherwiseExec (scope : Scope) : Option (List Statement) → Eval Scope
  | none => .ok scope
  | some body => blockExec scope body

end

end
end Source

/-! ### Lowering keeps the value -/

namespace Lowering
variable (l : Lowering) (bound : List String)

section
variable (scope : Scope)

mutual

/-- A tree that was lowered without a note has the value of its expression. -/
theorem expr_eval : (e : Source.Expr) → (l.expr bound e).notes = [] →
    (l.expr bound e).value.eval scope = e.eval l.typeOf scope
  | .literal _ _, _ => rfl
  | .ident span name, h => by
    rw [expr] at h ⊢
    split at h
    case isTrue hb => rw [if_pos hb]; rfl
    case isFalse => simp [reject] at h
  | .field _ base name, h => by
    have hbase := expr_eval base (by simpa [expr] using h)
    show (Tree.eval scope (l.expr bound base).value >>= _) = _
    rw [hbase, Source.Expr.eval]
  | .method span receiver name args, h => by
    rw [expr] at h ⊢
    rw [Source.Expr.eval]
    cases hb : Builtin.ofSpelling? name with
    | none =>
      rw [hb] at h
      simp [reject] at h
    | some b =>
      rw [hb] at h
      dsimp only at h ⊢
      split at h
      · simp [reject] at h
      · next harity =>
        simp only [Noted.bind_notes, Noted.pure_notes, List.append_nil, List.append_eq_nil_iff] at h
        have hr := expr_eval receiver h.1
        have ha := exprs_eval args h.2
        rw [if_neg harity]
        show (Tree.eval scope (l.expr bound receiver).value >>= fun v =>
          Tree.evalArgs scope (l.exprs bound args).value >>= v.invoke b) = _
        rw [hr, ha]
  | .call span callee args, h => by simp [expr, reject] at h
  | .choice _ value condition otherwise, h => by
    simp only [expr, Noted.bind_notes, Noted.pure_notes, List.append_nil,
      List.append_eq_nil_iff] at h
    have hc := expr_eval condition h.1
    have hv := expr_eval value h.2.1
    have ho := expr_eval otherwise h.2.2
    show Tree.eval scope (.cond _ _ _) = _
    rw [Tree.eval, Source.Expr.eval, hc, hv, ho]
  | .binary _ lhs op rhs, h => by
    simp only [expr, Noted.bind_notes, Noted.pure_notes, List.append_nil,
      List.append_eq_nil_iff] at h
    have hl := expr_eval lhs h.1
    have hr := expr_eval rhs h.2
    show Tree.eval scope (.binary op _ _) = _
    cases op <;> simp only [Tree.eval, Source.Expr.eval, hl, hr]
  | .unary _ op operand, h => by
    have ho := expr_eval operand (by simpa [expr] using h)
    show Tree.eval scope (.unary op _) = _
    cases op <;> simp only [Tree.eval, Source.Expr.eval, ho]
  | .construct span type args, h => by
    rw [expr] at h ⊢
    split at h
    · next hnamed =>
      have ha := arguments_eval args [] hnamed (by simpa using h)
      rw [if_pos hnamed]
      show (Tree.evalBindings scope [] (l.arguments bound args).value >>= _) = _
      rw [ha, Source.Expr.eval]
    · simp [reject] at h
  | .paren _ inner, h => expr_eval inner h

theorem exprs_eval : (es : List Source.Expr) → (l.exprs bound es).notes = [] →
    Tree.evalArgs scope (l.exprs bound es).value = Source.Expr.listEval l.typeOf scope es
  | [], _ => rfl
  | e :: rest, h => by
    simp only [exprs, Noted.bind_notes, Noted.pure_notes, List.append_nil,
      List.append_eq_nil_iff] at h
    have he := expr_eval e h.1
    have hrest := exprs_eval rest h.2
    show Tree.evalArgs scope (_ :: _) = _
    rw [Tree.evalArgs, Source.Expr.listEval, he, hrest]

theorem arguments_eval : (args : List Source.Argument) → (fields : List (String × Value)) →
    args.all (·.name?.isSome) = true → (l.arguments bound args).notes = [] →
    Tree.evalBindings scope fields (l.arguments bound args).value =
      Source.Argument.listEval l.typeOf scope fields args
  | [], _, _, _ => rfl
  | .positional _ :: rest, _, hn, _ => by simp [Source.Argument.name?] at hn
  | .named name value :: rest, fields, hn, h => by
    simp only [arguments, Noted.bind_notes, Noted.pure_notes, List.append_nil,
      List.append_eq_nil_iff] at h
    rw [List.all_cons, Bool.and_eq_true] at hn
    have hv := expr_eval value h.1
    have hrest (fields : List (String × Value)) := arguments_eval rest fields hn.2 h.2
    show Tree.evalBindings scope fields (_ :: _) = _
    simp only [Tree.evalBindings, Source.Argument.listEval, hv, hrest]

end
end

end Lowering
end StagedMapping
