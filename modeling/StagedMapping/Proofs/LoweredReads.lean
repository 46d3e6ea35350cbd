import StagedMapping.Proofs.LoweredRuns
import StagedMapping.Proofs.StageRecords

/-! Reads of what is written and of what is lowered. The analysis looks at the reads of written
expressions and statements, and plans run what was lowered. A tree that was lowered without a note
reads the names that its expression reads, each as often, though the condition of a choice comes
first (`Lowering.expr_reads_perm`). Residuals that were lowered without a note read and assign, at
whatever depth, the names that are reads of their statement (`Lowering.statement_reads_perm`), so
the one side knows of all that the other does (`Lowering.reads_agree`). -/
namespace StagedMapping

/-! ### What residuals read and assign -/

mutual

/-- The names that a residual reads or assigns, also inside branches. -/
def Residual.uses : Residual → List String
  | .letIn _ _ none => []
  | .letIn _ _ (some value) => value.reads
  | .assign name value => name :: value.reads
  | .branch test yes no => test.reads ++ blockUses yes ++ blockUses no
  | .eval value => value.reads

def Residual.blockUses : List Residual → List String
  | [] => []
  | r :: rest => r.uses ++ blockUses rest

end

namespace Residual

theorem blockUses_eq (rs : List Residual) : blockUses rs = rs.flatMap uses := by
  induction rs with
  | nil => rfl
  | cons r rest ih => rw [blockUses, ih, List.flatMap_cons]

theorem blockUses_append (a b : List Residual) :
    blockUses (a ++ b) = blockUses a ++ blockUses b := by
  simp only [blockUses_eq, List.flatMap_append]

theorem blockUses_singleton (r : Residual) : blockUses [r] = r.uses := List.append_nil _

end Residual

namespace Lowering
variable (l : Lowering)
open Source

/-! ### Expressions -/

mutual

/-- A tree that was lowered without a note reads what its expression reads. -/
theorem expr_reads_perm (bound : List String) : (e : Expr) → (l.expr bound e).notes = [] →
    (l.expr bound e).value.reads.Perm (e.reads.map (·.text))
  | .literal _ _, _ => .refl []
  | .ident span name, h => by
    rw [expr] at h ⊢
    split at h
    case isTrue hb =>
      rw [if_pos hb]
      exact .refl [name]
    case isFalse => simp [reject] at h
  | .field _ base name, h => expr_reads_perm bound base (by simpa [expr] using h)
  | .method span receiver name args, h => by
    rw [expr] at h ⊢
    cases hb : Builtin.ofSpelling? name with
    | none =>
      rw [hb] at h
      simp [reject] at h
    | some b =>
      rw [hb] at h
      dsimp only at h ⊢
      split at h
      · simp [reject] at h
      · next harity =>
        simp only [Noted.bind_notes, Noted.pure_notes, List.append_nil, List.append_eq_nil_iff] at h
        have hr := expr_reads_perm bound receiver h.1
        have ha := exprs_reads_perm bound args h.2
        rw [if_neg harity, Expr.reads, List.map_append]
        exact hr.append ha
  | .call span callee args, h => by simp [expr, reject] at h
  | .choice _ value condition otherwise, h => by
    simp only [expr, Noted.bind_notes, Noted.pure_notes, List.append_nil,
      List.append_eq_nil_iff] at h
    have hc := expr_reads_perm bound condition h.1
    have hv := expr_reads_perm bound value h.2.1
    have ho := expr_reads_perm bound otherwise h.2.2
    rw [Expr.reads, List.map_append, List.map_append]
    exact ((hc.append hv).trans List.perm_append_comm).append ho
  | .binary _ lhs op rhs, h => by
    simp only [expr, Noted.bind_notes, Noted.pure_notes, List.append_nil,
      List.append_eq_nil_iff] at h
    have hl := expr_reads_perm bound lhs h.1
    have hr := expr_reads_perm bound rhs h.2
    rw [Expr.reads, List.map_append]
    exact hl.append hr
  | .unary _ op operand, h => expr_reads_perm bound operand (by simpa [expr] using h)
  | .construct span type args, h => by
    rw [expr] at h ⊢
    split at h
    · next hnamed =>
      rw [if_pos hnamed]
      exact arguments_reads_perm bound args hnamed (by simpa using h)
    · simp [reject] at h
  | .paren _ inner, h => expr_reads_perm bound inner h

theorem exprs_reads_perm (bound : List String) : (es : List Expr) → (l.exprs bound es).notes = [] →
    (Tree.argReads (l.exprs bound es).value).Perm ((Expr.listReads es).map (·.text))
  | [], _ => .refl []
  | e :: rest, h => by
    simp only [exprs, Noted.bind_notes, Noted.pure_notes, List.append_nil,
      List.append_eq_nil_iff] at h
    have he := expr_reads_perm bound e h.1
    have hrest := exprs_reads_perm bound rest h.2
    rw [Expr.listReads, List.map_append]
    exact he.append hrest

theorem arguments_reads_perm (bound : List String) : (args : List Argument) →
    args.all (·.name?.isSome) = true → (l.arguments bound args).notes = [] →
    (Tree.bindingReads (l.arguments bound args).value).Perm
      ((Argument.listReads args).map (·.text))
  | [], _, _ => .refl []
  | .positional _ :: rest, hn, _ => by simp [Argument.name?] at hn
  | .named name value :: rest, hn, h => by
    simp only [arguments, Noted.bind_notes, Noted.pure_notes, List.append_nil,
      List.append_eq_nil_iff] at h
    rw [List.all_cons, Bool.and_eq_true] at hn
    have hv := expr_reads_perm bound value h.1
    have hrest := arguments_reads_perm bound rest hn.2 h.2
    rw [Argument.listReads, Argument.reads, List.map_append]
    exact hv.append hrest

end

/-! ### Statements -/

theorem bindings_reads_perm (bound : List String) (bs : List Binding)
    (h : (l.bindings bound bs).notes = []) :
    (Residual.blockUses (l.bindings bound bs).value.1).Perm
      ((bs.flatMap fun b => optionalReads b.value).map (·.text)) := by
  induction bs generalizing bound with
  | nil => exact .refl []
  | cons b rest ih =>
    simp only [bindings, Noted.bind_notes, Noted.pure_notes, List.append_nil,
      List.append_eq_nil_iff] at h
    obtain ⟨name, type, value⟩ := b
    rw [List.flatMap_cons, List.map_append]
    refine List.Perm.append ?_ (ih (name.text :: bound) h.2)
    cases value with
    | none => exact .refl []
    | some e => exact l.expr_reads_perm bound e (by simpa [optional] using h.1)

theorem assignment_reads_perm (bound : List String) (target : Ident) (value : Expr)
    (h : (l.assignment bound target value).notes = []) :
    (Residual.blockUses (l.assignment bound target value).value).Perm
      ((target :: value.reads).map (·.text)) := by
  rw [assignment] at h ⊢
  split at h
  case isFalse => simp at h
  case isTrue hb =>
  rw [if_pos hb]
  show (Residual.blockUses [.assign _ _]).Perm _
  rw [Residual.blockUses_singleton, List.map_cons]
  exact (l.expr_reads_perm bound value (by simpa using h)).cons target.text

mutual

/-- Residuals that were lowered without a note read and assign what their statement reads. -/
theorem statement_reads_perm (bound : List String) : (s : Statement) →
    (l.statement bound s).notes = [] →
    (Residual.blockUses (l.statement bound s).value.1).Perm (s.reads.map (·.text))
  | .letIn _ bs, h => l.bindings_reads_perm bound bs h
  | .assign _ target value, h =>
    l.assignment_reads_perm bound target value (by simpa [statement] using h)
  | .expr _ value, h => by
    have hv := l.expr_reads_perm bound value (by simpa [statement] using h)
    show (Residual.blockUses [.eval _]).Perm _
    rwa [Residual.blockUses_singleton]
  | .branch _ condition body others last, h => by
    simp only [statement, Noted.bind_notes, Noted.pure_notes, List.append_nil,
      List.append_eq_nil_iff] at h
    have hc := l.expr_reads_perm bound condition h.1
    have hb := block_reads_perm bound body h.2.1
    have ho := branches_reads_perm bound others (otherwise_reads_perm bound last h.2.2.1) h.2.2.2
    show (Residual.blockUses [.branch _ _ _]).Perm _
    rw [Residual.blockUses_singleton, Statement.reads]
    simp only [List.map_append, List.append_assoc] at ho ⊢
    rw [Residual.uses, List.append_assoc]
    exact hc.append (hb.append ho)
  | .loop .., h => by simp [statement] at h
  | .ret .., h => by simp [statement] at h
  | .pass _, _ => .refl []

theorem block_reads_perm (bound : List String) : (body : List Statement) →
    (l.block bound body).notes = [] →
    (Residual.blockUses (l.block bound body).value).Perm ((blockReads body).map (·.text))
  | [], _ => .refl []
  | s :: rest, h => by
    simp only [block, Noted.bind_notes, Noted.pure_notes, List.append_nil,
      List.append_eq_nil_iff] at h
    have hs := statement_reads_perm bound s h.1
    have hrest := block_reads_perm _ rest h.2
    show (Residual.blockUses (_ ++ _)).Perm _
    rw [Residual.blockUses_append, blockReads, List.map_append]
    exact hs.append hrest

/-- The conditions and bodies come before what is left where no condition holds. -/
theorem branches_reads_perm (bound : List String) {last : List Residual} {left : List Ident} :
    (others : List (Expr × List Statement)) →
    (Residual.blockUses last).Perm (left.map (·.text)) → (l.branches bound last others).notes = [] →
    (Residual.blockUses (l.branches bound last others).value).Perm
      ((othersReads others ++ left).map (·.text))
  | [], hl, _ => hl
  | (condition, body) :: rest, hl, h => by
    simp only [branches, Noted.bind_notes, Noted.pure_notes, List.append_nil,
      List.append_eq_nil_iff] at h
    have hrest := branches_reads_perm bound rest hl h.1
    have hc := l.expr_reads_perm bound condition h.2.1
    have hb := block_reads_perm bound body h.2.2
    show (Residual.blockUses [.branch _ _ _]).Perm _
    rw [Residual.blockUses_singleton, othersReads]
    simp only [List.map_append, List.append_assoc] at hrest ⊢
    rw [Residual.uses, List.append_assoc]
    exact hc.append (hb.append hrest)

theorem otherwise_reads_perm (bound : List String) : (last : Option (List Statement)) →
    (l.otherwise bound last).notes = [] →
    (Residual.blockUses (l.otherwise bound last).value).Perm ((otherwiseReads last).map (·.text))
  | none, _ => .refl []
  | some body, h => block_reads_perm bound body h

end

/-- What is lowered without a note reads what is written. The free names of a tree are those that
its expression reads; and the names that residuals read or assign, at whatever depth, are those
that are reads of their statement. -/
theorem reads_agree (l : Lowering) (bound : List String) :
    (∀ e, (l.expr bound e).notes = [] →
      ∀ n, n ∈ (l.expr bound e).value.parameters ↔ ∃ r ∈ e.reads, r.text = n) ∧
    ∀ s, (l.statement bound s).notes = [] →
      ∀ n, (∃ r ∈ (l.statement bound s).value.1, n ∈ r.uses) ↔ ∃ r ∈ s.reads, r.text = n := by
  constructor
  · intro e h n
    rw [Tree.mem_parameters, (l.expr_reads_perm bound e h).mem_iff, List.mem_map]
  · intro s h n
    rw [← List.mem_map, ← (l.statement_reads_perm bound s h).mem_iff, Residual.blockUses_eq,
      List.mem_flatMap]

/-- `s if n == 1 else new Target(name = u.name)`, and an `if` with an `elif` that assigns `s`. -/
theorem reads_agree_chain :
    let e := .choice Sample.place (Sample.name "s") (Sample.isNumber 1)
      (.construct Sample.place (.named Sample.place ["Target"])
        [.named ⟨"name", Sample.place⟩ (Sample.field "u" "name")])
    (Sample.lowering.expr ["u", "s", "n"] e).notes = [] ∧
      (Sample.lowering.statement ["s", "n"] Sample.chain).notes = [] ∧
      (Sample.lowering.expr ["u", "s", "n"] e).value.parameters = ["n", "s", "u"] ∧
      e.reads.map (·.text) = ["s", "n", "u"] ∧
      (∀ n, n ∈ (Sample.lowering.expr ["u", "s", "n"] e).value.parameters ↔
        ∃ r ∈ e.reads, r.text = n) ∧
      ∀ n, (∃ r ∈ (Sample.lowering.statement ["s", "n"] Sample.chain).value.1, n ∈ r.uses) ↔
        ∃ r ∈ Sample.chain.reads, r.text = n := by
  intro e
  have he : (Sample.lowering.expr ["u", "s", "n"] e).notes = [] := rfl
  have hs : (Sample.lowering.statement ["s", "n"] Sample.chain).notes = [] := rfl
  exact ⟨he, hs, by decide +kernel, rfl, (reads_agree Sample.lowering _).1 e he,
    (reads_agree Sample.lowering _).2 Sample.chain hs⟩

end Lowering
end StagedMapping
