import StagedMapping.Plan
import StagedMapping.Query

/-! The surfaces of a plan. The default mapping and each factory can be applied to a value
(`map`, `mapWith`), taken as a function (`callable`, `callableWith`), put into a query
(`project`, `projectWith`), or mapped over a sequence (`iter`, `iterWith`). The arguments of
a factory are bound once, and a failure of theirs is a failure of the whole surface. -/
namespace StagedMapping

/-- A mapping as a function. -/
abbrev MapFunction := Value → Except MapError Value

/-- A sequence that is mapped element by element as it is read. -/
structure MapIter where
  source : List Value
  function : MapFunction

namespace MapIter

/-- The next result, and the rest of the sequence. -/
def next? (it : MapIter) : Option (Except MapError Value × MapIter) :=
  match it.source with
  | [] => none
  | v :: rest => some (it.function v, { it with source := rest })

/-- At most `n` results, and the rest of the sequence. -/
def take (n : Nat) (it : MapIter) : List (Except MapError Value) × MapIter :=
  match n with
  | 0 => ([], it)
  | n + 1 =>
    match it.next? with
    | none => ([], it)
    | some (result, rest) =>
      let (results, last) := rest.take n
      (result :: results, last)

/-- The number of results to come. -/
def remaining (it : MapIter) : Nat := it.source.length

/-- All results to come. -/
def toList (it : MapIter) : List (Except MapError Value) := (it.take it.remaining).1

end MapIter

namespace MapPlan

def callable (m : MapPlan) : MapFunction := fun v => (m.defaultStage.apply v).lift

def callableWith (m : MapPlan) (digest : String) (args : Args) : Except MapError MapFunction := do
  let stages ← m.bind digest args
  return fun v => (applyStages stages v).lift

def map (m : MapPlan) (v : Value) : Except MapError Value := (m.defaultStage.apply v).lift

def mapWith (m : MapPlan) (digest : String) (args : Args) (v : Value) : Except MapError Value := do
  (applyStages (← m.bind digest args) v).lift

def project (m : MapPlan) (q : Query) : Query := q.select m.defaultStage

def projectWith (m : MapPlan) (digest : String) (args : Args) (q : Query) :
    Except MapError Query := do
  return (← m.bind digest args).foldl Query.select q

def iter (m : MapPlan) (source : List Value) : MapIter := ⟨source, m.callable⟩

def iterWith (m : MapPlan) (digest : String) (args : Args) (source : List Value) :
    Except MapError MapIter := do
  return ⟨source, ← m.callableWith digest args⟩

end MapPlan
end StagedMapping
