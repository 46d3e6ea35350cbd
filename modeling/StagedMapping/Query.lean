import StagedMapping.Tree.Eval

/-! Deferred queries: rows and the stages to apply to each of them. Stages are trees, so a
query can be shown before it runs (`Query.description`). -/
namespace StagedMapping

/-- Applies functions one after the other. -/
def applyStages (stages : List Lambda) (v : Value) : Eval Value :=
  match stages with
  | [] => .ok v
  | stage :: rest => do applyStages rest (← stage.apply v)

theorem applyStages_append (xs ys : List Lambda) (v : Value) :
    applyStages (xs ++ ys) v = applyStages xs v >>= applyStages ys := by
  induction xs generalizing v with
  | nil => rfl
  | cons x xs ih =>
    simp only [List.cons_append, applyStages, bind, Except.bind]
    cases x.apply v <;> simp [ih, bind, Except.bind]

structure Query where
  rows : List Value
  stages : List Lambda
  deriving Repr

namespace Query

def ofRows (rows : List Value) : Query := ⟨rows, []⟩

/-- Adds a stage. -/
def select (q : Query) (stage : Lambda) : Query := { q with stages := q.stages ++ [stage] }

/-- Every row through every stage, or the failure of the first row that fails. -/
def toList (q : Query) : Eval (List Value) := q.rows.mapM (applyStages q.stages)

def description (q : Query) : String :=
  "source" ++ String.join (q.stages.map fun s => ".select(" ++ s.text ++ ")")

end Query
end StagedMapping
