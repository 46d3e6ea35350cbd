import StagedMapping.Pass
import StagedMapping.Proofs.BoundScope

/-! What a plan is made of. The plan of a mapping holds the plans of its factories that could
be lowered without a note, and its default projection is the one that the properties make,
or that of a factory without parameters, variables and residuals. The mappings of a pass are
built of the methods of descriptors, so each of their factories is one of a method that was
accepted (`Mapping.factory_of_build`). -/
namespace StagedMapping

namespace Mapping
variable (m : Mapping) (c : Compilation)

/-- The plan of a factory comes of its lowering, which left no note. -/
theorem mem_planFactories (merged : Option Lambda) (fs : List Factory) {p : FactoryPlan}
    (hp : p ∈ (m.planFactories c merged fs).value.2) :
    ∃ f ∈ fs, f.isDegenerate = false ∧ (m.lower c f).notes = [] ∧ p = m.factoryPlan c f := by
  induction fs generalizing merged with
  | nil => cases hp
  | cons f rest ih =>
    have hrest (merged : Option Lambda) (hp : p ∈ (m.planFactories c merged rest).value.2) :
        ∃ g ∈ f :: rest, g.isDegenerate = false ∧ (m.lower c g).notes = [] ∧
          p = m.factoryPlan c g := by
      obtain ⟨g, hg, h⟩ := ih merged hp
      exact ⟨g, List.mem_cons_of_mem _ hg, h⟩
    rw [planFactories.eq_def] at hp
    simp only at hp
    split at hp
    · split at hp
      · exact hrest _ hp
      · split at hp <;> exact hrest _ hp
    · next hf =>
      split at hp
      · next t ht =>
        rcases List.mem_cons.1 hp with rfl | hp
        · refine ⟨f, List.mem_cons_self, by simpa using hf, by rw [ht], ?_⟩
          rw [factoryPlan, ht]
        · exact hrest _ hp
      · exact hrest _ hp

/-- The default projection that factories leave is one of them, or that from before. -/
theorem planFactories_stage (merged : Option Lambda) (fs : List Factory) {l : Lambda}
    (hl : (m.planFactories c merged fs).value.1 = some l) :
    merged = some l ∨ ∃ f ∈ fs, f.isDegenerate = true ∧ m.degenerateStage c f = ⟨l, []⟩ := by
  induction fs generalizing merged with
  | nil => exact .inl hl
  | cons f rest ih =>
    have hrest (merged : Option Lambda) (hl : (m.planFactories c merged rest).value.1 = some l) :
        merged = some l ∨ ∃ g ∈ f :: rest, g.isDegenerate = true ∧
          m.degenerateStage c g = ⟨l, []⟩ := by
      refine (ih merged hl).imp_right fun ⟨g, hg, h⟩ => ⟨g, List.mem_cons_of_mem _ hg, h⟩
    rw [planFactories.eq_def] at hl
    simp only at hl
    split at hl
    · next hf =>
      split at hl
      · exact hrest _ hl
      · split at hl
        · next stage hstage =>
          refine .inr ((hrest _ hl).elim (fun he => ?_) id)
          cases he
          exact ⟨f, List.mem_cons_self, hf, hstage⟩
        · exact hrest none hl
    · split at hl <;> exact hrest _ hl

theorem mem_plan {p : FactoryPlan} (hp : p ∈ (m.plan c).value.factories) :
    ∃ f ∈ m.factories, f.isDegenerate = false ∧ (m.lower c f).notes = [] ∧
      p = m.factoryPlan c f := m.mem_planFactories c none m.factories hp

/-- The default projection of a plan. -/
theorem plan_defaultStage : (m.plan c).value.defaultStage = m.defaultStage ∨
    ∃ f ∈ m.factories, f.isDegenerate = true ∧
      m.degenerateStage c f = ⟨(m.plan c).value.defaultStage, []⟩ := by
  have hplan : (m.plan c).value.defaultStage =
      (m.planFactories c none m.factories).value.1.getD m.defaultStage := rfl
  cases hl : (m.planFactories c none m.factories).value.1 with
  | none =>
    left
    rw [hplan, hl]
    rfl
  | some l =>
    right
    rw [hplan, hl]
    exact (m.planFactories_stage c none m.factories hl).resolve_left nofun

/-- A factory of a mapping that was built is one of a method. -/
theorem factory_of_build {source target : Descriptor} {declared : DeclaredAt} {f : Factory}
    (hf : f ∈ (Mapping.build c source target declared).value.factories) :
    ∃ method ∈ target.methods, Factory.ofMethod c source target declared method = .ok f := by
  obtain ⟨result, hresult, hok⟩ := List.mem_filterMap.1 hf
  obtain ⟨method, hmethod, rfl⟩ := List.mem_map.1 hresult
  refine ⟨method, (List.mem_filter.1 hmethod).1, ?_⟩
  cases h : Factory.ofMethod c source target declared method with
  | error e => rw [h] at hok; cases hok
  | ok g =>
    rw [h] at hok
    cases hok
    rfl

end Mapping

theorem units_of_compileSources {inputs : List Input} {files : List SourceFile}
    {compiled : List CompiledType} {options : EmitOptions} {result : PassResult}
    (h : compileSources inputs files compiled options = .ok result) :
    result.units = ((Compilation.ofSources files compiled).units
      (Compilation.ofSources files compiled).discover.value).value := by
  unfold compileSources at h
  extract_lets c requests problems units finish at h
  split at h
  · cases h
    rfl
  · cases hcode : Emission.file c units.value options with
    | error e => rw [hcode] at h; cases h
    | ok code =>
      rw [hcode] at h
      cases h
      rfl

/-- Sources with errors have a result, which is without code. -/
theorem compileSources_of_problem {inputs : List Input} {files : List SourceFile}
    {compiled : List CompiledType} {options : EmitOptions}
    (h : (Compilation.ofSources files compiled).problems.any (·.problem.isError) = true) :
    ∃ result, compileSources inputs files compiled options = .ok result ∧ result.code = none := by
  unfold compileSources
  extract_lets c requests problems units finish
  have hp : problems.any (·.problem.isError) = true := by
    rw [List.any_append, h, Bool.true_or]
  rw [if_pos hp]
  exact ⟨_, rfl, rfl⟩

/-- A mapping of a pass is of one of its requests. -/
theorem unit_of_compile {inputs : List Input} {compiled : List CompiledType}
    {options : EmitOptions} {result : PassResult} (h : compile inputs compiled options = .ok result)
    {u : Generated.MapUnit} (hu : u ∈ result.units) : ∃ files, readSources inputs = .ok files ∧
      ∃ r ∈ (Compilation.ofSources files compiled).discover.value,
        u = ((Compilation.ofSources files compiled).unit r.source r.target r.declared).value := by
  rw [compile] at h
  split at h
  · cases h
    cases hu
  · next files hfiles =>
    rw [units_of_compileSources h, Compilation.units, Noted.mapM_value] at hu
    obtain ⟨r, hr, rfl⟩ := List.mem_map.1 hu
    exact ⟨files, hfiles, r, hr, rfl⟩

/-- The plans of a pass are plans of mappings that it built. -/
theorem plan_of_compile {inputs : List Input} {compiled : List CompiledType}
    {options : EmitOptions} {result : PassResult} (h : compile inputs compiled options = .ok result)
    {plan : MapPlan} (hp : plan ∈ result.plans) :
    ∃ (c : Compilation) (source target : Descriptor) (declared : DeclaredAt),
      plan = ((Mapping.build c source target declared).value.plan c).value := by
  obtain ⟨unit, hunit, rfl⟩ := List.mem_map.1 hp
  obtain ⟨files, -, r, -, rfl⟩ := unit_of_compile h hunit
  exact ⟨_, r.source, r.target, r.declared, rfl⟩

end StagedMapping
