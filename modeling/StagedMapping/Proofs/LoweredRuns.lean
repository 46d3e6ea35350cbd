import StagedMapping.Proofs.Classification
import StagedMapping.Proofs.DirectEvaluation

/-! Lowered bodies do what is written. A body that is run as it is written leaves a scope also
where it fails: what was bound before the failure stays bound (`Source.blockOutcome`). Of an
`if` and its `elif`s the first way is taken whose condition holds (`Source.firstTrue`), while
lowering makes nested alternatives of them, the last one first. What was lowered without a note
leaves the same scope and the same failure, from any scope (`Lowering.block_outcome`,
`Lowering.lowered_means_written`). -/
namespace StagedMapping

/-! ### Bodies as they are written -/

namespace Source
variable (types : TypeExpr → TypeRef)

def bindingsOutcome (scope : Scope) : List Binding → Outcome
  | [] => ⟨scope, none⟩
  | b :: rest =>
    (Residual.attempt scope (b.exec types scope)).andThen fun after => bindingsOutcome after rest

/-- The first way whose condition holds, else the last one. A condition that fails, or has no
truth value, ends the run. -/
def firstTrue (scope : Scope) (last : Outcome) : List (Expr × Outcome) → Outcome
  | [] => last
  | (condition, way) :: rest =>
    match condition.eval types scope with
    | .ok (.bool true) => way
    | .ok (.bool false) => firstTrue scope last rest
    | .ok v => Residual.attempt scope (v.mismatch "if condition" "bool")
    | .error e => ⟨scope, some e⟩

mutual

/-- What a statement leaves. A loop or a return inside a body fails. -/
def Statement.outcome (scope : Scope) : Statement → Outcome
  | .letIn _ bindings => bindingsOutcome types scope bindings
  | .assign _ target value =>
    Residual.attempt scope do Residual.change scope target.text (← value.eval types scope)
  | .expr _ value => Residual.attempt scope do
      let _ ← value.eval types scope
      return scope
  | .branch _ condition body others last =>
    firstTrue types scope (otherwiseOutcome scope last)
      ((condition, blockOutcome scope body) :: othersOutcomes scope others)
  | .loop .. => ⟨scope, some (.unbound "loop")⟩
  | .ret .. => ⟨scope, some (.unbound "return")⟩
  | .pass _ => ⟨scope, none⟩

def blockOutcome (scope : Scope) : List Statement → Outcome
  | [] => ⟨scope, none⟩
  | s :: rest => (s.outcome scope).andThen fun after => blockOutcome after rest

/-- What each way would leave. -/
def othersOutcomes (scope : Scope) : List (Expr × List Statement) → List (Expr × Outcome)
  | [] => []
  | (condition, body) :: rest =>
    (condition, blockOutcome scope body) :: othersOutcomes scope rest

def otherwiseOutcome (scope : Scope) : Option (List Statement) → Outcome
  | none => ⟨scope, none⟩
  | some body => blockOutcome scope body

end

theorem othersOutcomes_eq (scope : Scope) (others : List (Expr × List Statement)) :
    othersOutcomes types scope others =
      others.map fun o => (o.1, blockOutcome types scope o.2) := by
  induction others with
  | nil => rfl
  | cons o rest ih => rw [othersOutcomes, ih, List.map_cons]

section
variable {types} {scope : Scope} {last : Outcome}

/-- Conditions that do not hold are passed over. -/
theorem firstTrue_append {before : List (Expr × Outcome)}
    (h : ∀ b ∈ before, b.1.eval types scope = .ok (.bool false)) (rest : List (Expr × Outcome)) :
    firstTrue types scope last (before ++ rest) = firstTrue types scope last rest := by
  induction before with
  | nil => rfl
  | cons b before ih =>
    rw [List.cons_append, firstTrue, h b List.mem_cons_self]
    exact ih fun b hb => h b (List.mem_cons_of_mem _ hb)

theorem firstTrue_cons {condition : Expr}
    (h : condition.eval types scope = .ok (.bool true)) (way : Outcome)
    (rest : List (Expr × Outcome)) :
    firstTrue types scope last ((condition, way) :: rest) = way := by
  rw [firstTrue, h]

end

/-! ### Bodies that do not fail -/

theorem bindingsOutcome_toExcept (scope : Scope) (bs : List Binding) :
    (bindingsOutcome types scope bs).toExcept = bs.foldlM (Binding.exec types) scope := by
  induction bs generalizing scope with
  | nil => rfl
  | cons b rest ih =>
    rw [bindingsOutcome, Outcome.toExcept_andThen, Residual.toExcept_attempt, List.foldlM_cons]
    exact congrArg _ (funext ih)

theorem firstTrue_cons_toExcept (scope : Scope) (last : Outcome) (condition : Expr)
    (way : Outcome) (rest : List (Expr × Outcome)) :
    (firstTrue types scope last ((condition, way) :: rest)).toExcept =
      condition.eval types scope >>= fun
        | .bool true => way.toExcept
        | .bool false => (firstTrue types scope last rest).toExcept
        | v => v.mismatch "if condition" "bool" := by
  rw [firstTrue]
  cases condition.eval types scope with
  | error e => rfl
  | ok v =>
    cases v with
    | bool b => cases b <;> rfl
    | _ => rfl

mutual

/-- The scope that a statement leaves if it does not fail. -/
theorem Statement.outcome_toExcept (scope : Scope) : (s : Statement) →
    (s.outcome types scope).toExcept = s.exec types scope
  | .letIn _ bs => bindingsOutcome_toExcept types scope bs
  | .assign _ target value => Residual.toExcept_attempt scope _
  | .expr _ value => Residual.toExcept_attempt scope _
  | .branch _ condition body others last => by
    have h := firstTrue_cons_toExcept types scope (otherwiseOutcome types scope last) condition
      (blockOutcome types scope body) (othersOutcomes types scope others)
    rw [blockOutcome_toExcept scope body, othersOutcomes_toExcept scope _ others,
      otherwiseOutcome_toExcept scope last] at h
    exact h
  | .loop .. => rfl
  | .ret .. => rfl
  | .pass _ => rfl

theorem blockOutcome_toExcept (scope : Scope) : (body : List Statement) →
    (blockOutcome types scope body).toExcept = blockExec types scope body
  | [] => rfl
  | s :: rest => by
    rw [blockOutcome, Outcome.toExcept_andThen, Statement.outcome_toExcept scope s, blockExec]
    exact congrArg _ (funext fun after => blockOutcome_toExcept after rest)

theorem othersOutcomes_toExcept (scope : Scope) (last : Outcome) :
    (others : List (Expr × List Statement)) →
    (firstTrue types scope last (othersOutcomes types scope others)).toExcept =
      othersExec types scope last.toExcept others
  | [] => rfl
  | (condition, body) :: rest => by
    have h := firstTrue_cons_toExcept types scope last condition (blockOutcome types scope body)
      (othersOutcomes types scope rest)
    rw [blockOutcome_toExcept scope body, othersOutcomes_toExcept scope last rest] at h
    exact h

theorem otherwiseOutcome_toExcept (scope : Scope) : (last : Option (List Statement)) →
    (otherwiseOutcome types scope last).toExcept = otherwiseExec types scope last
  | none => rfl
  | some body => blockOutcome_toExcept scope body

end
end Source

/-! ### Lowered bodies -/

namespace Lowering
variable (l : Lowering)
open Source

theorem bindings_outcome (bs : List Binding) (scope : Scope) (bound : List String)
    (h : (l.bindings bound bs).notes = []) :
    Residual.execAll scope (l.bindings bound bs).value.1 = bindingsOutcome l.typeOf scope bs := by
  induction bs generalizing bound scope with
  | nil => rfl
  | cons b rest ih =>
    simp only [bindings, Noted.bind_notes, Noted.pure_notes, List.append_nil,
      List.append_eq_nil_iff] at h
    have hinitial : Residual.initial scope (b.type.map fun t => (l.typeOf t).text)
        (l.optional bound b.value).value >>= (fun v => .ok (Bindings.set scope b.name.text v)) =
          b.exec l.typeOf scope := by
      obtain ⟨name, type, value⟩ := b
      cases value with
      | none => cases type <;> rfl
      | some e =>
        have he := l.expr_eval bound scope e (by simpa [optional] using h.1)
        show (Tree.eval scope (l.expr bound e).value >>= _) >>= _ = _
        rw [he, bind_assoc]
        cases type <;> rfl
    show Residual.execAll scope (_ :: _) = _
    rw [Residual.execAll_cons, bindingsOutcome, Residual.exec]
    change (Residual.attempt scope (Residual.initial _ _ _ >>= _)).andThen _ = _
    rw [← hinitial]
    exact congrArg _ (funext fun after => ih after _ h.2)

theorem assignment_outcome (bound : List String) (target : Ident) (value : Expr) (scope : Scope)
    (h : (l.assignment bound target value).notes = []) :
    Residual.execAll scope (l.assignment bound target value).value =
      Residual.attempt scope (value.eval l.typeOf scope >>= Residual.change scope target.text) := by
  rw [assignment] at h ⊢
  split at h
  case isFalse => simp at h
  case isTrue hb =>
  rw [if_pos hb]
  show Residual.execAll scope [.assign _ _] = _
  rw [Residual.execAll_singleton, Residual.exec, l.expr_eval bound scope value (by simpa using h)]

/-- A lowered alternative takes the first of its two ways, or goes on to the others. -/
theorem branch_outcome (bound : List String) (condition : Expr) (scope : Scope)
    {yes no : List Residual} {way last : Outcome} {rest : List (Expr × Outcome)}
    (hc : (l.expr bound condition).notes = []) (hy : Residual.execAll scope yes = way)
    (hn : Residual.execAll scope no = firstTrue l.typeOf scope last rest) :
    Residual.execAll scope [.branch (l.expr bound condition).value yes no] =
      firstTrue l.typeOf scope last ((condition, way) :: rest) := by
  rw [Residual.execAll_singleton, Residual.exec, firstTrue, l.expr_eval bound scope condition hc,
    hy, hn]
  cases condition.eval l.typeOf scope with
  | error e => rfl
  | ok v =>
    cases v with
    | bool b => cases b <;> rfl
    | _ => rfl

mutual

/-- Residuals that were lowered without a note leave what their statements leave. -/
theorem statement_outcome (bound : List String) (scope : Scope) : (s : Statement) →
    (l.statement bound s).notes = [] →
    Residual.execAll scope (l.statement bound s).value.1 = s.outcome l.typeOf scope
  | .letIn _ bs, h => l.bindings_outcome bs scope bound h
  | .assign _ target value, h =>
    l.assignment_outcome bound target value scope (by simpa [statement] using h)
  | .expr _ value, h => by
    have hv := l.expr_eval bound scope value (by simpa [statement] using h)
    show Residual.execAll scope [.eval _] = _
    rw [Residual.execAll_singleton, Residual.exec, hv, Statement.outcome]
  | .branch _ condition body others last, h => by
    simp only [statement, Noted.bind_notes, Noted.pure_notes, List.append_nil,
      List.append_eq_nil_iff] at h
    rw [Statement.outcome]
    exact l.branch_outcome bound condition scope h.1 (block_outcome bound scope body h.2.1)
      (branches_outcome bound scope others (otherwise_outcome bound scope last h.2.2.1) h.2.2.2)
  | .loop .., h => by simp [statement] at h
  | .ret .., h => by simp [statement] at h
  | .pass _, _ => rfl

theorem block_outcome (bound : List String) (scope : Scope) : (body : List Statement) →
    (l.block bound body).notes = [] →
    Residual.execAll scope (l.block bound body).value = blockOutcome l.typeOf scope body
  | [], _ => rfl
  | s :: rest, h => by
    simp only [block, Noted.bind_notes, Noted.pure_notes, List.append_nil,
      List.append_eq_nil_iff] at h
    have hs := statement_outcome bound scope s h.1
    show Residual.execAll scope (_ ++ _) = _
    rw [Residual.execAll_append, hs, blockOutcome]
    exact congrArg _ (funext fun after => block_outcome _ after rest h.2)

theorem branches_outcome (bound : List String) (scope : Scope) {last : List Residual}
    {otherwise : Outcome} : (others : List (Expr × List Statement)) →
    Residual.execAll scope last = otherwise → (l.branches bound last others).notes = [] →
    Residual.execAll scope (l.branches bound last others).value =
      firstTrue l.typeOf scope otherwise (othersOutcomes l.typeOf scope others)
  | [], hl, _ => hl
  | (condition, body) :: rest, hl, h => by
    simp only [branches, Noted.bind_notes, Noted.pure_notes, List.append_nil,
      List.append_eq_nil_iff] at h
    rw [othersOutcomes]
    exact l.branch_outcome bound condition scope h.2.1 (block_outcome bound scope body h.2.2)
      (branches_outcome bound scope rest hl h.1)

theorem otherwise_outcome (bound : List String) (scope : Scope) :
    (last : Option (List Statement)) → (l.otherwise bound last).notes = [] →
    Residual.execAll scope (l.otherwise bound last).value =
      otherwiseOutcome l.typeOf scope last
  | none, _ => rfl
  | some body, h => block_outcome bound scope body h

end

/-- Residuals that were lowered without a note run as their statements do. -/
theorem block_exec (bound : List String) (scope : Scope) (body : List Statement)
    (h : (l.block bound body).notes = []) :
    Residual.run scope (l.block bound body).value = blockExec l.typeOf scope body := by
  rw [Residual.run, l.block_outcome bound scope body h, blockOutcome_toExcept]

end Lowering

/-! ### A chain of conditions -/

namespace Sample

def lowering : Lowering := ⟨compilation, ⟨"app::Target", "map", 0⟩, []⟩

def isNumber (n : Int64) : Source.Expr := .binary place (name "n") .eq (.literal place (.int n))

def setsWord (word : String) : List Source.Statement := [.assign place ⟨"s", place⟩ (text word)]

/-- An `if` with one `elif` and an `else` that passes. -/
def chain : Source.Statement :=
  .branch place (isNumber 1) (setsWord "one") [(.paren place (isNumber 2), setsWord "two")]
    (some [.pass place])

end Sample

namespace Lowering
open Source

/-- Lowering preserves meaning. What is lowered without a note has the same value, and leaves
the same scope and the same failure, as what is written. Of a lowered `if` with its `elif`s
the conditions are evaluated in order: the body runs whose condition is the first that holds,
a condition that fails before ends the run, and where none holds the `else` runs. -/
theorem lowered_means_written (l : Lowering) (bound : List String) (scope : Scope) :
    (∀ e, (l.expr bound e).notes = [] →
      (l.expr bound e).value.eval scope = e.eval l.typeOf scope) ∧
    (∀ body, (l.block bound body).notes = [] →
      Residual.execAll scope (l.block bound body).value = blockOutcome l.typeOf scope body) ∧
    ∀ span condition body others last,
      (l.statement bound (.branch span condition body others last)).notes = [] →
      let outcome := Residual.execAll scope
        (l.statement bound (.branch span condition body others last)).value.1
      (∀ before c b after, (condition, body) :: others = before ++ (c, b) :: after →
        (∀ w ∈ before, w.1.eval l.typeOf scope = .ok (.bool false)) →
        (c.eval l.typeOf scope = .ok (.bool true) → outcome = blockOutcome l.typeOf scope b) ∧
        ∀ e, c.eval l.typeOf scope = .error e → outcome = ⟨scope, some e⟩) ∧
      ((∀ w ∈ (condition, body) :: others, w.1.eval l.typeOf scope = .ok (.bool false)) →
        outcome = otherwiseOutcome l.typeOf scope last) := by
  refine ⟨fun e => l.expr_eval bound scope e, fun body => l.block_outcome bound scope body, ?_⟩
  intro span condition body others last hn outcome
  let way (w : Expr × List Statement) := (w.1, blockOutcome l.typeOf scope w.2)
  have hruns : outcome = firstTrue l.typeOf scope (otherwiseOutcome l.typeOf scope last)
      (((condition, body) :: others).map way) := by
    have h := l.statement_outcome bound scope _ hn
    rwa [Statement.outcome, othersOutcomes_eq] at h
  have hpassed {ws : List (Expr × List Statement)}
      (hw : ∀ w ∈ ws, w.1.eval l.typeOf scope = .ok (.bool false)) :
      ∀ w ∈ ws.map way, w.1.eval l.typeOf scope = .ok (.bool false) := by
    intro w hm
    obtain ⟨v, hv, rfl⟩ := List.mem_map.1 hm
    exact hw v hv
  refine ⟨fun before c b after hsplit hbefore => ?_, fun hall => ?_⟩
  · rw [hruns, hsplit, List.map_append, List.map_cons, firstTrue_append (hpassed hbefore)]
    exact ⟨fun hc => firstTrue_cons hc _ _, fun e he => by rw [firstTrue, he]⟩
  · rw [hruns, ← List.append_nil (List.map _ _), firstTrue_append (hpassed hall), firstTrue]

theorem lowered_means_written_chain :
    (Sample.lowering.expr ["n"] (.paren Sample.place (Sample.name "n"))).value.eval
        [("n", .int 2)] = .ok (.int 2) ∧
      Residual.execAll [("n", .int 2)]
          (Sample.lowering.block ["n"] [Sample.given "s" (Sample.text ""), Sample.chain]).value =
        ⟨[("n", .int 2), ("s", .str "two")], none⟩ ∧
      Residual.execAll [("n", .int 2), ("s", .str "")]
          (Sample.lowering.statement ["s", "n"] Sample.chain).value.1 =
        blockOutcome Sample.lowering.typeOf [("n", .int 2), ("s", .str "")]
          (Sample.setsWord "two") :=
  ⟨(lowered_means_written Sample.lowering ["n"] [("n", .int 2)]).1 _ rfl,
    (lowered_means_written Sample.lowering ["n"] [("n", .int 2)]).2.1 _ rfl,
    (((lowered_means_written Sample.lowering ["s", "n"] [("n", .int 2), ("s", .str "")]).2.2 _ _ _
      _ _ rfl).1 [_] _ _ _ rfl (by simp only [List.mem_singleton, forall_eq]; rfl)).1 rfl⟩

end Lowering
end StagedMapping
