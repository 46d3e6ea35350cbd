import StagedMapping.Tree.Eval

/-! What the evaluation of a tree depends on. A name that is not bound is the one failure
that scopes are about: no operation fails that way (`Eval.Bound`), so a tree fails that way
only for a free name without a value. The values of the free names decide everything else,
and a tree put in the place of a name may be evaluated in another scope, as long as it has
the value of the name there (`Tree.eval_substitute`). -/
namespace StagedMapping

/-! ### Failures other than of a name -/

/-- The result is not the failure of a name that is not bound. -/
def Eval.Bound {α : Type} (e : Eval α) : Prop := ∀ name, e ≠ .error (.unbound name)

namespace Eval
variable {α β : Type}

theorem bound_ok (a : α) : Bound (.ok a) := fun _ h => by cases h

theorem Bound.bind {x : Eval α} {f : α → Eval β} (hx : Bound x)
    (hf : ∀ a, x = .ok a → Bound (f a)) : Bound (x >>= f) := by
  cases x with
  | error e =>
    intro name h
    apply hx name
    cases h
    rfl
  | ok a => exact hf a rfl

end Eval

namespace Value
open Eval

theorem mismatch_bound {α : Type} (context expected : String) (v : Value) :
    Bound (mismatch context expected v : Eval α) := fun _ h => by cases h

theorem expectBool_bound (context : String) (v : Value) : Bound (v.expectBool context) := by
  cases v with
  | bool b => exact bound_ok b
  | _ => exact mismatch_bound context "bool" _

theorem expectStr_bound (context : String) (v : Value) : Bound (v.expectStr context) := by
  cases v with
  | str s => exact bound_ok s
  | _ => exact mismatch_bound context "str" _

theorem member_bound (v : Value) (name : String) : Bound (v.member name) := by
  unfold member
  split
  · split
    · exact bound_ok _
    · intro _ h; cases h
  · intro _ h; cases h

theorem integer_bound (operation : String) (n : Option Int64) : Bound (integer operation n) := by
  cases n with
  | none => intro _ h; cases h
  | some n => exact bound_ok _

theorem negate_bound (v : Value) : Bound v.negate := by
  cases v with
  | int n => exact integer_bound _ _
  | float x => exact bound_ok _
  | _ => exact mismatch_bound _ _ _

theorem absolute_bound (v : Value) : Bound v.absolute := by
  cases v with
  | int n => exact integer_bound _ _
  | float x => exact bound_ok _
  | _ => exact mismatch_bound _ _ _

theorem compare_bound (symbol : String) (strings : String → String → Bool)
    (floats : Float → Float → Bool) (a b : Value) : Bound (compare symbol strings floats a b) := by
  unfold compare
  split
  · exact bound_ok _
  · split
    · exact bound_ok _
    · exact mismatch_bound _ _ _

theorem arithmetic_bound (symbol : String) {ints : Int64 → Int64 → Eval Value}
    (floats : Float → Float → Float) (a b : Value) (h : ∀ m n, Bound (ints m n)) :
    Bound (arithmetic symbol ints floats a b) := by
  unfold arithmetic
  split
  · exact h _ _
  · split
    · exact bound_ok _
    · exact mismatch_bound _ _ _
    · exact mismatch_bound _ _ _

theorem division_bound (symbol : String) (f : Int64 → Int64 → Option Int64) (m n : Int64) :
    Bound (division symbol f m n) := by
  unfold division
  split
  · intro _ h; cases h
  · exact integer_bound _ _

theorem operate_bound (op : BinaryOp) (a b : Value) : Bound (a.operate op b) := by
  unfold operate
  split
  case h_1 | h_2 | h_7 => exact bound_ok _
  case h_3 | h_4 | h_5 | h_6 => exact compare_bound _ _ _ _ _
  case h_8 | h_9 | h_10 => exact arithmetic_bound _ _ _ _ fun _ _ => integer_bound _ _
  case h_11 | h_12 => exact arithmetic_bound _ _ _ _ fun _ _ => division_bound _ _ _ _
  case h_13 | h_14 =>
    exact (expectBool_bound _ _).bind fun _ _ => (expectBool_bound _ _).bind fun _ _ => bound_ok _

theorem expectStrs_bound (context : String) (vs : List Value) :
    Bound (vs.mapM (expectStr context)) := by
  induction vs with
  | nil => exact bound_ok []
  | cons v rest ih =>
    rw [List.mapM_cons]
    exact (expectStr_bound context v).bind fun _ _ => ih.bind fun _ _ => bound_ok _

theorem invoke_bound (method : Builtin) (v : Value) (args : List Value) :
    Bound (v.invoke method args) := by
  by_cases h : args.length = method.arity
  · simp only [invoke, h, ne_eq, not_true_eq_false, if_false]
    split
    · exact bound_ok _
    · exact absolute_bound v
    · exact (expectStr_bound _ v).bind fun _ _ =>
        (expectStrs_bound _ args).bind fun _ _ => bound_ok _
  · simp only [invoke, ne_eq, h, not_false_eq_true, if_true]
    intro _ hn
    cases hn

end Value

namespace Tree
open Eval

/-! ### What an evaluation reads -/

mutual

/-- A tree whose free names are all bound does not fail for want of a name. -/
theorem eval_bound {scope : Scope} : (t : Tree) →
    (∀ n ∈ t.reads, n ∈ Bindings.names scope) → Bound (t.eval scope)
  | const v, _ => bound_ok v
  | param name, h => by
    have hn := (Bindings.get?_isSome scope name).2 (h name (List.mem_singleton.2 rfl))
    obtain ⟨v, hv⟩ := Option.isSome_iff_exists.1 hn
    rw [eval, hv]
    exact bound_ok v
  | member base name, h => by
    rw [eval]
    exact (eval_bound base h).bind fun v _ => v.member_bound name
  | call receiver method args, h => by
    have hr := eval_bound receiver fun n hn => h n (List.mem_append_left _ hn)
    have ha := evalArgs_bound args fun n hn => h n (List.mem_append_right _ hn)
    rw [eval]
    exact hr.bind fun v _ => ha.bind fun vs _ => v.invoke_bound method vs
  | cond test yes no, h => by
    have ht := eval_bound test fun n hn => h n (by simp [reads, hn])
    have hy := eval_bound yes fun n hn => h n (by simp [reads, hn])
    have hn := eval_bound no fun n hn => h n (by simp [reads, hn])
    rw [eval]
    refine ht.bind fun v _ => (v.expectBool_bound _).bind fun b _ => ?_
    cases b
    · exact hn
    · exact hy
  | binary op lhs rhs, h => by
    have hl := eval_bound lhs fun n hn => h n (List.mem_append_left _ hn)
    have hr := eval_bound rhs fun n hn => h n (List.mem_append_right _ hn)
    cases op with
    | and =>
      rw [eval]
      refine hl.bind fun v _ => (v.expectBool_bound _).bind fun b _ => ?_
      cases b
      · exact bound_ok _
      · exact hr.bind fun w _ => (w.expectBool_bound _).bind fun _ _ => bound_ok _
    | or =>
      rw [eval]
      refine hl.bind fun v _ => (v.expectBool_bound _).bind fun b _ => ?_
      cases b
      · exact hr.bind fun w _ => (w.expectBool_bound _).bind fun _ _ => bound_ok _
      · exact bound_ok _
    | _ => exact hl.bind fun a _ => hr.bind fun b _ => a.operate_bound _ b
  | unary op operand, h => by
    have ho := eval_bound operand h
    cases op with
    | neg =>
      rw [eval]
      exact ho.bind fun v _ => v.negate_bound
    | not =>
      rw [eval]
      exact ho.bind fun v _ => (v.expectBool_bound _).bind fun _ _ => bound_ok _
  | init typeName bindings, h => by
    rw [eval]
    exact (evalBindings_bound bindings [] h).bind fun _ _ => bound_ok _

theorem evalArgs_bound {scope : Scope} : (ts : List Tree) →
    (∀ n ∈ argReads ts, n ∈ Bindings.names scope) → Bound (evalArgs scope ts)
  | [], _ => bound_ok []
  | t :: rest, h => by
    have ht := eval_bound t fun n hn => h n (List.mem_append_left _ hn)
    have hrest := evalArgs_bound rest fun n hn => h n (List.mem_append_right _ hn)
    rw [evalArgs]
    exact ht.bind fun _ _ => hrest.bind fun _ _ => bound_ok _

theorem evalBindings_bound {scope : Scope} : (bs : List (String × Tree)) →
    (fields : List (String × Value)) → (∀ n ∈ bindingReads bs, n ∈ Bindings.names scope) →
    Bound (evalBindings scope fields bs)
  | [], fields, _ => bound_ok fields
  | (name, t) :: rest, fields, h => by
    have ht := eval_bound t fun n hn => h n (List.mem_append_left _ hn)
    rw [evalBindings]
    exact ht.bind fun v _ => evalBindings_bound rest _ fun n hn => h n (List.mem_append_right _ hn)

end

/-! ### Substitution -/

mutual

theorem substitute_none : (t : Tree) → t.substitute (fun _ => none) = t
  | const _ | param _ => rfl
  | member base name => by rw [substitute, substitute_none base]
  | call receiver method args => by
    rw [substitute, substitute_none receiver, substituteArgs_none args]
  | cond test yes no => by
    rw [substitute, substitute_none test, substitute_none yes, substitute_none no]
  | binary op lhs rhs => by rw [substitute, substitute_none lhs, substitute_none rhs]
  | unary op operand => by rw [substitute, substitute_none operand]
  | init typeName bindings => by rw [substitute, substituteBindings_none bindings]

theorem substituteArgs_none : (ts : List Tree) → substituteArgs (fun _ => none) ts = ts
  | [] => rfl
  | t :: rest => by rw [substituteArgs, substitute_none t, substituteArgs_none rest]

theorem substituteBindings_none :
    (bs : List (String × Tree)) → substituteBindings (fun _ => none) bs = bs
  | [] => rfl
  | (name, t) :: rest => by
    rw [substituteBindings, substitute_none t, substituteBindings_none rest]

end

section
variable {replace : String → Option Tree} {outer inner : Scope}

mutual

/-- A tree evaluates as before if what replaces each of its free names has the value of the
name. -/
theorem eval_substitute : (t : Tree) →
    (∀ n ∈ t.reads, ((replace n).getD (param n)).eval outer = (param n).eval inner) →
    (t.substitute replace).eval outer = t.eval inner
  | const _, _ => rfl
  | param name, h => h name (List.mem_singleton.2 rfl)
  | member base name, h => by rw [substitute, eval, eval, eval_substitute base h]
  | call receiver method args, h => by
    have hr := eval_substitute receiver fun n hn => h n (List.mem_append_left _ hn)
    have ha := evalArgs_substitute args fun n hn => h n (List.mem_append_right _ hn)
    rw [substitute, eval, eval, hr, ha]
  | cond test yes no, h => by
    have ht := eval_substitute test fun n hn => h n (by simp [reads, hn])
    have hy := eval_substitute yes fun n hn => h n (by simp [reads, hn])
    have hn := eval_substitute no fun n hn => h n (by simp [reads, hn])
    rw [substitute, eval, eval, ht, hy, hn]
  | binary op lhs rhs, h => by
    have hl := eval_substitute lhs fun n hn => h n (List.mem_append_left _ hn)
    have hr := eval_substitute rhs fun n hn => h n (List.mem_append_right _ hn)
    rw [substitute]
    cases op <;> simp only [eval, hl, hr]
  | unary op operand, h => by
    have ho := eval_substitute operand h
    rw [substitute]
    cases op <;> simp only [eval, ho]
  | init typeName bindings, h => by
    rw [substitute, eval, eval, evalBindings_substitute bindings [] h]

theorem evalArgs_substitute : (ts : List Tree) →
    (∀ n ∈ argReads ts, ((replace n).getD (param n)).eval outer = (param n).eval inner) →
    evalArgs outer (substituteArgs replace ts) = evalArgs inner ts
  | [], _ => rfl
  | t :: rest, h => by
    have ht := eval_substitute t fun n hn => h n (List.mem_append_left _ hn)
    have hrest := evalArgs_substitute rest fun n hn => h n (List.mem_append_right _ hn)
    rw [substituteArgs, evalArgs, evalArgs, ht, hrest]

theorem evalBindings_substitute : (bs : List (String × Tree)) → (fields : List (String × Value)) →
    (∀ n ∈ bindingReads bs, ((replace n).getD (param n)).eval outer = (param n).eval inner) →
    evalBindings outer fields (substituteBindings replace bs) = evalBindings inner fields bs
  | [], _, _ => rfl
  | (name, t) :: rest, fields, h => by
    have ht := eval_substitute t fun n hn => h n (List.mem_append_left _ hn)
    have hrest (fields : List (String × Value)) :=
      evalBindings_substitute rest fields fun n hn => h n (List.mem_append_right _ hn)
    simp only [substituteBindings, evalBindings, ht, hrest]

end

end

/-- The value of a tree depends on its free names only. -/
theorem eval_congr {t : Tree} {a b : Scope}
    (h : ∀ n ∈ t.reads, Bindings.get? a n = Bindings.get? b n) : t.eval a = t.eval b := by
  have := @eval_substitute (fun _ => none) a b t fun n hn => by
    show (param n).eval a = (param n).eval b
    rw [eval, eval, h n hn]
  rwa [substitute_none] at this

end Tree
end StagedMapping
