import Mathlib.Tactic.Tauto
import StagedMapping.Lowering
import StagedMapping.Proofs.Replay

/-! Scopes of lowered code. Lowering knows the names that may be read where it is, and what it
makes reads no others (`Lowering.expr_reads`). A scope that binds these names never fails for
want of one: for trees at once, for statements along the run, since a `let` adds to the names
of its block and a branch gives its own back (`Lowering.block_binds`). -/
namespace StagedMapping

namespace Lowering
variable (l : Lowering)
open Eval

/-! ### Trees -/

mutual

/-- A lowered expression reads bound names only. -/
theorem expr_reads (bound : List String) : (e : Source.Expr) →
    ∀ n ∈ (l.expr bound e).value.reads, n ∈ bound
  | .literal _ _ => by intro n hn; cases hn
  | .ident span name => by
    intro n hn
    rw [expr] at hn
    split at hn
    case isTrue h =>
      cases List.mem_singleton.1 hn
      exact List.contains_iff_mem.1 h
    case isFalse => cases hn
  | .field _ base name => expr_reads bound base
  | .method span receiver name args => by
    intro n hn
    rw [expr] at hn
    split at hn
    · cases hn
    · split at hn
      · cases hn
      · rcases List.mem_append.1 hn with hn | hn
        · exact expr_reads bound receiver n hn
        · exact exprs_reads bound args n hn
  | .call span callee args => by intro n hn; cases hn
  | .choice _ value condition otherwise => by
    intro n hn
    rcases List.mem_append.1 hn with hn | hn
    · rcases List.mem_append.1 hn with hn | hn
      · exact expr_reads bound condition n hn
      · exact expr_reads bound value n hn
    · exact expr_reads bound otherwise n hn
  | .binary _ lhs op rhs => by
    intro n hn
    rcases List.mem_append.1 hn with hn | hn
    · exact expr_reads bound lhs n hn
    · exact expr_reads bound rhs n hn
  | .unary _ op operand => expr_reads bound operand
  | .construct span type args => by
    intro n hn
    rw [expr] at hn
    split at hn
    · exact arguments_reads bound args n hn
    · cases hn
  | .paren _ inner => expr_reads bound inner

theorem exprs_reads (bound : List String) : (es : List Source.Expr) →
    ∀ n ∈ Tree.argReads (l.exprs bound es).value, n ∈ bound
  | [] => by intro n hn; cases hn
  | e :: rest => by
    intro n hn
    rcases List.mem_append.1 hn with hn | hn
    · exact expr_reads bound e n hn
    · exact exprs_reads bound rest n hn

theorem arguments_reads (bound : List String) : (args : List Source.Argument) →
    ∀ n ∈ Tree.bindingReads (l.arguments bound args).value, n ∈ bound
  | [] => by intro n hn; cases hn
  | .positional _ :: rest => arguments_reads bound rest
  | .named name value :: rest => by
    intro n hn
    rcases List.mem_append.1 hn with hn | hn
    · exact expr_reads bound value n hn
    · exact arguments_reads bound rest n hn

end

/-- Where its names are bound, a lowered expression does not fail for want of one. -/
theorem expr_bound {bound : List String} (e : Source.Expr) {scope : Scope}
    (h : ∀ n ∈ bound, n ∈ Bindings.names scope) : Bound ((l.expr bound e).value.eval scope) :=
  Tree.eval_bound _ fun n hn => h n (l.expr_reads bound e n hn)

theorem initial_bound {bound : List String} (type : Option String) (value : Option Source.Expr)
    {scope : Scope} (h : ∀ n ∈ bound, n ∈ Bindings.names scope) :
    Bound (Residual.initial scope type (l.optional bound value).value) := by
  cases value with
  | none => exact bound_ok _
  | some e => exact (l.expr_bound e h).bind fun _ _ => bound_ok _

end Lowering

/-- The names that a statement declares for the statements after it; what is declared in a
branch ends with the branch. -/
def Source.Statement.locals : Source.Statement → List String
  | .letIn _ bindings => bindings.map (·.name.text)
  | _ => []

namespace Lowering
variable (l : Lowering)
open Eval

/-! ### Statements -/

theorem bindings_after (bound : List String) (bs : List Source.Binding) (n : String) :
    n ∈ (l.bindings bound bs).value.2 ↔ n ∈ bs.map (·.name.text) ∨ n ∈ bound := by
  induction bs generalizing bound with
  | nil => simp [bindings]
  | cons b rest ih =>
    have := ih (b.name.text :: bound)
    simp only [bindings, Noted.bind_value, Noted.pure_value, List.map_cons, List.mem_cons] at this ⊢
    rw [this]
    tauto

theorem statement_after (bound : List String) (s : Source.Statement) (n : String) :
    n ∈ (l.statement bound s).value.2 ↔ n ∈ s.locals ∨ n ∈ bound := by
  cases s with
  | letIn span bs =>
    rw [statement]
    exact l.bindings_after bound bs n
  | _ => simp [statement, Source.Statement.locals]

theorem bindings_binds {bound : List String} (bs : List Source.Binding) {scope : Scope}
    (h : ∀ n ∈ bound, n ∈ Bindings.names scope) :
    Binds (l.bindings bound bs).value.2 (Residual.run scope (l.bindings bound bs).value.1) := by
  induction bs generalizing bound scope with
  | nil => exact binds_ok h
  | cons b rest ih =>
    show Binds _ (Residual.run scope (_ :: _))
    rw [Residual.run_cons, ← Residual.run_singleton, Residual.run_letIn, bind_assoc]
    refine (l.initial_bound _ b.value h).binds fun v => ?_
    refine ih fun n hn => (Bindings.mem_names_set _ _ _ _).2 ?_
    rcases List.mem_cons.1 hn with hn | hn
    · exact .inl hn
    · exact .inr (h n hn)

theorem assignment_binds {bound : List String} (target : Source.Ident) (value : Source.Expr)
    {scope : Scope} (h : ∀ n ∈ bound, n ∈ Bindings.names scope) :
    Binds bound (Residual.run scope (l.assignment bound target value).value) := by
  rw [assignment]
  split
  case isFalse => exact binds_ok h
  case isTrue ht =>
    show Binds bound (Residual.run scope [.assign _ _])
    rw [Residual.run_assign]
    refine (l.expr_bound value h).binds fun v => ?_
    have hn := (Bindings.get?_isSome scope _).2 (h _ (List.contains_iff_mem.1 ht))
    obtain ⟨old, hold⟩ := Option.isSome_iff_exists.1 hn
    rw [Residual.change, hold]
    exact binds_ok fun n hn => (Bindings.mem_names_set _ _ _ _).2 (.inr (h n hn))

/-- The two ways of a branch. -/
theorem branch_binds {bound : List String} (condition : Source.Expr) {yes no : List Residual}
    {scope : Scope} (h : ∀ n ∈ bound, n ∈ Bindings.names scope)
    (hy : Binds bound (Residual.run scope yes)) (hn : Binds bound (Residual.run scope no)) :
    Binds bound (Residual.run scope [.branch (l.expr bound condition).value yes no]) := by
  rw [Residual.run_branch]
  refine (l.expr_bound condition h).binds fun v => ?_
  split
  · exact hy
  · exact hn
  · exact ⟨Value.mismatch_bound _ _ _, fun _ h => by cases h⟩

mutual

/-- Where its names are bound, a lowered statement does not fail for want of one, and the
names bound after it are. -/
theorem statement_binds {bound : List String} {scope : Scope}
    (h : ∀ n ∈ bound, n ∈ Bindings.names scope) : (s : Source.Statement) →
    Binds (l.statement bound s).value.2 (Residual.run scope (l.statement bound s).value.1)
  | .letIn _ bs => by
    rw [statement]
    exact l.bindings_binds bs h
  | .assign _ target value => l.assignment_binds target value h
  | .expr _ value => by
    show Binds bound (Residual.run scope [.eval _])
    rw [Residual.run_eval]
    exact (l.expr_bound value h).binds fun _ => binds_ok h
  | .branch _ condition body others last =>
    l.branch_binds condition h ((block_binds h body).mono fun _ hn => List.mem_append_right _ hn)
      (branches_binds h (otherwise_binds h last) others)
  | .loop .. => binds_ok h
  | .ret .. => binds_ok h
  | .pass _ => binds_ok h

theorem block_binds {bound : List String} {scope : Scope}
    (h : ∀ n ∈ bound, n ∈ Bindings.names scope) : (body : List Source.Statement) →
    Binds (body.flatMap (·.locals) ++ bound) (Residual.run scope (l.block bound body).value)
  | [] => binds_ok h
  | s :: rest => by
    show Binds _ (Residual.run scope (_ ++ _))
    rw [Residual.run_append]
    refine (statement_binds h s).bind fun after ha => (block_binds ha rest).mono fun n hn => ?_
    simp only [List.flatMap_cons, List.mem_append, l.statement_after] at hn ⊢
    tauto

theorem branches_binds {bound : List String} {scope : Scope}
    (h : ∀ n ∈ bound, n ∈ Bindings.names scope) {last : List Residual}
    (hl : Binds bound (Residual.run scope last)) :
    (others : List (Source.Expr × List Source.Statement)) →
    Binds bound (Residual.run scope (l.branches bound last others).value)
  | [] => hl
  | (condition, body) :: rest =>
    l.branch_binds condition h ((block_binds h body).mono fun _ hn => List.mem_append_right _ hn)
      (branches_binds h hl rest)

theorem otherwise_binds {bound : List String} {scope : Scope}
    (h : ∀ n ∈ bound, n ∈ Bindings.names scope) : (last : Option (List Source.Statement)) →
    Binds bound (Residual.run scope (l.otherwise bound last).value)
  | none => binds_ok h
  | some body => (block_binds h body).mono fun _ hn => List.mem_append_right _ hn

end

end Lowering
end StagedMapping
