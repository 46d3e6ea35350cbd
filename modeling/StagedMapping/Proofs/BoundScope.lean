import StagedMapping.Proofs.Classification
import StagedMapping.Proofs.LoweringScope
import StagedMapping.Proofs.Outcomes
import StagedMapping.Staging

/-! The scope that arguments and residuals leave. A default reads the parameters before its
own, and the residuals of a factory read parameters and residual locals, so a binding never
fails for want of a name; and what the stages may take from the scope, the parameters and
the residual locals, is bound in it (`Mapping.boundScope_binds`). -/
namespace StagedMapping

/-! ### Bindings that may fail for other reasons -/

/-- A binding that does not fail for want of a name, and that leaves names bound. -/
structure MapError.Binds (bound : List String) (e : Except MapError Scope) : Prop where
  safe : ∀ name, e ≠ .error (.eval (.unbound name))
  after : ∀ scope, e = .ok scope → ∀ n ∈ bound, n ∈ Bindings.names scope

namespace MapError

theorem binds_ok {bound : List String} {scope : Scope}
    (h : ∀ n ∈ bound, n ∈ Bindings.names scope) : Binds bound (.ok scope) where
  safe := fun _ h => by cases h
  after := fun _ hs => by cases hs; exact h

theorem Binds.lift {bound : List String} {e : Eval Scope} (h : Eval.Binds bound e) :
    Binds bound e.lift where
  safe := by
    cases e with
    | ok scope => exact fun _ h => by cases h
    | error e =>
      intro name hn
      apply h.safe name
      cases hn
      rfl
  after := by
    cases e with
    | ok scope => exact fun _ hs => by cases hs; exact h.after scope rfl
    | error e => exact fun _ h => by cases h

theorem Binds.bind {before bound : List String} {x : Except MapError Scope}
    {f : Scope → Except MapError Scope} (hx : Binds before x)
    (hf : ∀ scope, (∀ n ∈ before, n ∈ Bindings.names scope) → Binds bound (f scope)) :
    Binds bound (x >>= f) where
  safe := by
    cases x with
    | ok scope => exact (hf scope (hx.after scope rfl)).safe
    | error e =>
      intro name hn
      apply hx.safe name
      cases hn
      rfl
  after := by
    cases x with
    | ok scope => exact (hf scope (hx.after scope rfl)).after
    | error e => exact fun _ h => by cases h

end MapError

/-! ### Parameters -/

namespace Mapping
open MapError

theorem parameterPlans_cons (l : Lowering) (before : List String) (p : Parameter)
    (rest : List Parameter) : (parameterPlans l before (p :: rest)).value =
      ⟨p.name, p.type.text, (l.optional before (p.default.bind (·.expr))).value⟩ ::
        (parameterPlans l (before ++ [p.name]) rest).value := rfl

theorem parameterPlans_names (l : Lowering) (before : List String) (ps : List Parameter) :
    (parameterPlans l before ps).value.map (·.name) = ps.map (·.name) := by
  induction ps generalizing before with
  | nil => rfl
  | cons p rest ih => rw [parameterPlans_cons, List.map_cons, List.map_cons, ih]

/-- An argument that is left out takes its default, which reads bound names. -/
theorem argument_safe (plan : FactoryPlan) (l : Lowering) {before : List String} {scope : Scope}
    (h : ∀ n ∈ before, n ∈ Bindings.names scope) (p : Parameter) (type : String)
    (passed : Option Value) (name : String) :
    plan.argument scope ⟨p.name, type, (l.optional before (p.default.bind (·.expr))).value⟩ passed ≠
      .error (.eval (.unbound name)) := by
  cases passed with
  | some v => exact fun h => by cases h
  | none =>
    cases p.default.bind (·.expr) with
    | none => exact fun h => by cases h
    | some e =>
      intro hn
      have hsafe := l.expr_bound e h name
      change (Tree.eval scope (l.expr before e).value).lift = _ at hn
      cases he : Tree.eval scope (l.expr before e).value with
      | ok v => rw [he] at hn; cases hn
      | error err =>
        rw [he] at hn
        cases hn
        exact hsafe he

theorem bindParameters_binds (plan : FactoryPlan) (l : Lowering) (ps : List Parameter)
    {before : List String} {scope : Scope} (h : ∀ n ∈ before, n ∈ Bindings.names scope)
    (args : Args) : Binds (before ++ ps.map (·.name))
      (plan.bindParameters scope (parameterPlans l before ps).value args) := by
  induction ps generalizing before scope args with
  | nil => exact binds_ok (by simpa using h)
  | cons p rest ih =>
    have hsafe := argument_safe plan l h p p.type.text args.head?.join
    rw [parameterPlans_cons, FactoryPlan.bindParameters]
    cases hv : plan.argument scope _ args.head?.join with
    | error e =>
      exact ⟨fun name hn => hsafe name (by rw [hv]; cases hn; rfl), fun _ h => by cases h⟩
    | ok v =>
      have hnext : ∀ n ∈ before ++ [p.name],
          n ∈ Bindings.names (Bindings.set scope p.name (v.coerce p.type.text)) := by
        intro n hn
        rw [Bindings.mem_names_set]
        rcases List.mem_append.1 hn with hn | hn
        · exact .inr (h n hn)
        · exact .inl (List.mem_singleton.1 hn)
      have hrest := ih hnext args.tail
      rw [List.append_assoc] at hrest
      exact hrest

/-! ### Lowered factories -/

section
variable (m : Mapping) (c : Compilation) (f : Factory)

/-- The plan of a factory. -/
def factoryPlan : FactoryPlan := m.assemble c f (m.lower c f).value

/-- The names that the variables of a factory may read. -/
def visible (f : Factory) : List String :=
  f.sourceParam :: f.parameters.map (·.name) ++ f.residualLocals.map (·.1)

theorem lower_vars : (m.lower c f).value.vars =
    f.vars.map fun v => (v.name, ((m.lowering c f).expr (visible f) v.value).value) :=
  Noted.mapM_value _ _

theorem lower_properties : (m.lower c f).value.properties = f.initializers.map fun i =>
    (i.target.name,
      ((m.lowering c f).expr (visible f ++ f.vars.map (·.name)) i.value).value) :=
  Noted.mapM_value _ _

/-- A variable reads the source, parameters and residual locals. -/
theorem vars_reads : ∀ v ∈ (m.lower c f).value.vars, ∀ n ∈ v.2.reads, n ∈ visible f := by
  rw [lower_vars]
  intro v hv
  obtain ⟨x, -, rfl⟩ := List.mem_map.1 hv
  exact (m.lowering c f).expr_reads _ x.value

/-- An initializer reads these and the variables. -/
theorem properties_reads : ∀ p ∈ (m.lower c f).value.properties, ∀ n ∈ p.2.reads,
    n ∈ visible f ++ f.vars.map (·.name) := by
  rw [lower_properties]
  intro p hp
  obtain ⟨i, -, rfl⟩ := List.mem_map.1 hp
  exact (m.lowering c f).expr_reads _ i.value

end
end Mapping

/-- The names that the binding of arguments leaves bound. -/
def Factory.boundNames (f : Factory) : List String :=
  f.parameters.map (·.name) ++ f.residualLocals.map (·.1)

/-- The residual locals are declared by the residuals, outside of branches. -/
def Factory.Scoped (f : Factory) : Prop :=
  ∀ n ∈ f.residualLocals.map (·.1), n ∈ f.residuals.flatMap (·.locals)

theorem Factory.Describes.scoped {c : Compilation} {target : Descriptor} {declared : DeclaredAt}
    {m : Method} {f : Factory} (h : f.Describes c target declared m) : f.Scoped := by
  have hadds := Progress.run_adds h.clear
  intro n hn
  rw [h.residualLocals, hadds.residualLocals] at hn
  rw [h.residuals, hadds.residuals]
  obtain ⟨i, hi, hd⟩ := List.mem_filterMap.1 hn
  refine List.mem_flatMap.2 ⟨i.toStatement, ?_, ?_⟩
  · exact List.mem_append_right _ (List.mem_map_of_mem hi)
  · cases i with
    | bind span b =>
      cases hd
      exact List.mem_singleton.2 rfl
    | other s => cases hd

/-! ### Binding -/

/-- The stages of a factory, with a scope bound in the first. -/
def FactoryPlan.boundStages (f : FactoryPlan) (scope : Scope) : List Lambda :=
  f.boundParams scope :: f.varsStage.toList ++ [f.finalStage]

theorem FactoryPlan.bind_eq_ok {f : FactoryPlan} {args : Args} {stages : List Lambda} :
    f.bind args = .ok stages ↔
      ∃ scope, f.boundScope args = .ok scope ∧ f.boundStages scope = stages := by
  rw [bind, StagedMapping.bind_eq_ok]
  simp only [boundStages, pure, Except.pure, Except.ok.injEq]

namespace Mapping

/-- A binding of arguments does not fail for want of a name, and binds every parameter and
every residual local. -/
theorem boundScope_binds (m : Mapping) (c : Compilation) {f : Factory} (h : f.Scoped)
    (args : Args) : MapError.Binds f.boundNames ((m.factoryPlan c f).boundScope args) := by
  rw [FactoryPlan.boundScope]
  split
  · exact ⟨nofun, nofun⟩
  · have hnone : ∀ n ∈ ([] : List String), n ∈ Bindings.names ([] : Scope) := nofun
    refine (bindParameters_binds _ (m.lowering c f) f.parameters hnone args).bind ?_
    intro scope hs
    refine MapError.Binds.lift (((m.lowering c f).block_binds hs f.residuals).mono ?_)
    intro n hn
    rcases List.mem_append.1 hn with hn | hn
    · exact List.mem_append_right _ hn
    · exact List.mem_append_left _ (h n hn)

end Mapping
end StagedMapping
