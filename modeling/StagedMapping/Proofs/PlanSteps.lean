import StagedMapping.Staging

/-! The planning of factories, step by step. A step gives what a factory adds to a plan: the
default projection if it is the first one that makes one, or a plan of its own. It adds
nothing if lowering leaves a note. A plan is the run of these steps, so a list of factories
may be planned in two parts (`Mapping.planFactories_append`). -/
namespace StagedMapping

namespace Noted
variable {ε α : Type}

/-- The result, if nothing was noted on the way to it. -/
def unnoted (x : Noted ε α) : Noted ε (Option α) :=
  ⟨if x.notes.isEmpty then some x.value else none, x.notes⟩

theorem unnoted_value_of_notes {x : Noted ε α} (h : x.notes ≠ []) : x.unnoted.value = none :=
  if_neg (by simpa using h)

theorem unnoted_mapNotes {δ : Type} (g : ε → δ) (x : Noted ε α) :
    (x.mapNotes g).unnoted = x.unnoted.mapNotes g := by
  simp [unnoted, ext_iff]

end Noted

namespace Mapping
variable (m : Mapping) (c : Compilation)

/-- What a factory adds to the plan of the factories before it, which leave the default
projection `merged`. -/
def planStep (merged : Option Lambda) (f : Factory) :
    Noted Diagnostic (Option Lambda × List FactoryPlan) :=
  if f.isDegenerate then
    match merged with
    | some stage => pure (some stage, [])
    | none => (·, []) <$> (m.degenerateStage c f).unnoted
  else (fun t => (merged, t.toList.map (m.assemble c f))) <$> (m.lower c f).unnoted

/-- A step that leaves a note adds nothing. -/
theorem planStep_value_of_notes {merged : Option Lambda} {f : Factory}
    (h : (m.planStep c merged f).notes ≠ []) : (m.planStep c merged f).value = (merged, []) := by
  unfold planStep at h ⊢
  split <;> rename_i hf
  · rw [if_pos hf] at h
    cases merged with
    | some stage => rfl
    | none =>
      rw [Noted.map_notes] at h
      exact congrArg (·, []) (Noted.unnoted_value_of_notes (x := m.degenerateStage c f) h)
  · rw [if_neg hf, Noted.map_notes] at h
    exact congrArg (fun t : Option Lowered => (merged, t.toList.map (m.assemble c f)))
      (Noted.unnoted_value_of_notes (x := m.lower c f) h)

/-- One factory after the other. -/
theorem planFactories_cons (merged : Option Lambda) (f : Factory) (rest : List Factory) :
    m.planFactories c merged (f :: rest) = (do
      let step ← m.planStep c merged f
      let more ← m.planFactories c step.1 rest
      return (more.1, step.2 ++ more.2)) := by
  rw [planFactories.eq_def, planStep.eq_def]
  dsimp only
  split
  · split
    · simp
    · cases m.degenerateStage c f with
      | mk stage notes => cases notes <;> simp [Noted.ext_iff, Noted.unnoted]
  · cases m.lower c f with
    | mk t notes => cases notes <;> simp [Noted.ext_iff, Noted.unnoted]

theorem planFactories_append (merged : Option Lambda) (fs gs : List Factory) :
    m.planFactories c merged (fs ++ gs) = (do
      let first ← m.planFactories c merged fs
      let more ← m.planFactories c first.1 gs
      return (more.1, first.2 ++ more.2)) := by
  induction fs generalizing merged with
  | nil => simp [planFactories]
  | cons f rest ih =>
    rw [List.cons_append, planFactories_cons, planFactories_cons]
    simp only [ih, bind_assoc, pure_bind, List.append_assoc]

end Mapping
end StagedMapping
