import StagedMapping.Proofs.KnownNames
import StagedMapping.Proofs.Partition

/-! The names in a factory. A factory is made of parts of a method that was read, so its
parameters and variables have names, and its expressions are written (`Factory.Describes.named`).
The mappings of a pass are of classes that were read, and so are their factories
(`mapping_of_compile`). -/
namespace StagedMapping
open Lexer (IsName)

/-! ### Steps of a body -/

/-- What a step declares has a name, and its expressions are written. -/
def Item.Written : Item → Prop
  | .bind _ b => b.Written
  | .other s => s.Written

theorem Item.written_ofStatement {s : Source.Statement} (h : s.Written) :
    ∀ i ∈ Item.ofStatement s, i.Written := by
  intro i hi
  cases h with
  | letIn hbindings =>
    obtain ⟨b, hb, rfl⟩ := List.mem_map.1 hi
    exact hbindings b hb
  | pass => cases hi
  | assign h => exact List.mem_singleton.1 hi ▸ Source.Statement.Written.assign h
  | expr h => exact List.mem_singleton.1 hi ▸ Source.Statement.Written.expr h
  | branch h₁ h₂ h₃ h₄ h₅ =>
    exact List.mem_singleton.1 hi ▸ Source.Statement.Written.branch h₁ h₂ h₃ h₄ h₅
  | loop h h' => exact List.mem_singleton.1 hi ▸ Source.Statement.Written.loop h h'
  | ret h => exact List.mem_singleton.1 hi ▸ Source.Statement.Written.ret h

theorem Item.Written.toStatement {i : Item} (h : i.Written) : i.toStatement.Written := by
  cases i with
  | bind span b => exact .letIn (List.forall_mem_singleton.2 h)
  | other s => exact h

theorem Item.Written.declares? {i : Item} (h : i.Written) {name : String}
    (hname : i.declares? = some name) : IsName name := by
  cases i with
  | bind span b =>
    cases hname
    exact Source.Binding.Written.name h
  | other s => cases hname

theorem Item.Written.asVariable? {i : Item} (h : i.Written) {param : String}
    {v : String × Source.Expr} (hv : i.asVariable? param = some v) :
    IsName v.1 ∧ v.2.Written := by
  unfold Item.asVariable? at hv
  split at hv
  case h_1 b =>
    split at hv
    · obtain ⟨value, hvalue, rfl⟩ := Option.map_eq_some_iff.1 hv
      exact ⟨Source.Binding.Written.name h, Source.Binding.Written.value h value hvalue⟩
    · cases hv
  case h_2 => cases hv

/-- The construction in a written expression. -/
theorem construction?_written {type : Source.TypeExpr} {args : List Source.Argument} :
    {e : Source.Expr} → e.Written → construction? e = some (type, args) →
      ∀ a ∈ args, a.value.Written
  | .paren _ inner, h, hc => construction?_written (h.within (.inner .self)) hc
  | .construct .., h, hc => by
    cases hc
    exact fun a ha => h.within (.initializer ha .self)

/-! ### Methods -/

namespace Method
variable {m : Method} (h : m.Named)
include h

theorem Named.statements : ∀ s ∈ m.statements, s.Written := by
  unfold Method.statements
  split
  case h_1 before _ _ hsplit =>
    obtain ⟨span, value, hbody, -⟩ := splitFinal_eq_some hsplit
    intro s hs
    refine h.body s ?_
    rw [hbody]
    exact List.mem_append_left _ hs
  case h_2 => exact List.forall_mem_nil _

theorem Named.steps : ∀ i ∈ m.steps, i.Written := by
  intro i hi
  obtain ⟨s, hs, hi⟩ := List.mem_flatMap.1 hi
  exact Item.written_ofStatement (h.statements s hs) i hi

theorem Named.finalArguments : ∀ a ∈ m.finalArguments, a.value.Written := by
  unfold Method.finalArguments
  split
  case h_1 _ _ args hsplit =>
    obtain ⟨span, value, hbody, hvalue⟩ := splitFinal_eq_some hsplit
    have hret : (Source.Statement.ret span (some value)).Written := by
      refine h.body _ ?_
      rw [hbody]
      exact List.mem_append_right _ (List.mem_singleton_self _)
    cases hret with
    | ret hvalues => exact construction?_written (hvalues value rfl) hvalue
  case h_2 => exact List.forall_mem_nil _

end Method

/-! ### Factories -/

/-- Parameters and locals have names, as have the properties that are initialized, and
expressions are written. -/
structure Factory.Named (f : Factory) : Prop where
  sourceParam : IsName f.sourceParam
  parameters : ∀ p ∈ f.parameters, p.Named
  vars : ∀ v ∈ f.vars, IsName v.name ∧ v.value.Written
  initializers : ∀ i ∈ f.initializers, IsName i.target.name ∧ i.value.Written
  residuals : ∀ s ∈ f.residuals, s.Written
  residualLocals : ∀ v ∈ f.residualLocals, IsName v.1

theorem Factory.Describes.named {c : Compilation} {target : Descriptor} {declared : DeclaredAt}
    {m : Method} {f : Factory} (h : f.Describes c target declared m) (hm : m.Named)
    (ht : ∀ p ∈ target.properties, IsName p.name) : f.Named where
  sourceParam := by
    rw [h.sourceParam, Method.sourceName]
    cases hp : m.parameters with
    | nil => exact absurd hp h.nonempty
    | cons p rest => exact (hm.parameters p (by rw [hp]; exact List.mem_cons_self)).name
  parameters p hp := by
    rw [h.parameters] at hp
    exact hm.parameters p (List.mem_of_mem_tail hp)
  vars v hv := by
    rw [h.vars] at hv
    have named := List.mem_map_of_mem (f := fun v : Variable => (v.name, v.value)) hv
    rw [(Progress.run_adds h.clear).vars] at named
    obtain ⟨i, hi, hvalue⟩ := List.mem_filterMap.1 named
    exact (hm.steps i hi).asVariable? hvalue
  initializers i hi := by
    rw [h.initializers] at hi
    obtain ⟨htarget, a, ha, hvalue⟩ := mem_keptInitializers hi
    exact ⟨ht _ htarget, hvalue ▸ hm.finalArguments a ha⟩
  residuals s hs := by
    rw [h.residuals, (Progress.run_adds h.clear).residuals] at hs
    obtain ⟨i, hi, rfl⟩ := List.mem_map.1 hs
    exact (hm.steps i (List.mem_filter.1 hi).1).toStatement
  residualLocals v hv := by
    rw [h.residualLocals] at hv
    have named := List.mem_map_of_mem (f := Prod.fst) hv
    rw [(Progress.run_adds h.clear).residualLocals] at named
    obtain ⟨i, hi, hname⟩ := List.mem_filterMap.1 named
    exact (hm.steps i (List.mem_filter.1 hi).1).declares? hname

/-! ### Mappings -/

/-- What a mapping is of has names. -/
structure Mapping.Named (m : Mapping) : Prop where
  target : Name.IsPath m.target.qualified
  properties : ∀ p ∈ m.properties, IsName p.source.name ∧ IsName p.target.name
  factories : ∀ f ∈ m.factories, f.Named

theorem Mapping.build_named (c : Compilation) {source target : Descriptor} {declared : DeclaredAt}
    (h : target.Named) : (Mapping.build c source target declared).value.Named where
  target := by
    obtain ⟨path, hns, hpath⟩ := h.space
    have ns : Name.IsPath target.key.ns := by
      rw [hns]
      exact (Source.isJoined_path hpath).isPath
    exact ns.qualify h.name.isPath
  properties p hp := by
    obtain ⟨target', htarget, hmatch⟩ := List.mem_filterMap.1 hp
    have name := h.propertyNames target' htarget
    unfold Descriptor.matching? at hmatch
    split at hmatch
    · split at hmatch
      · rename_i found hfound
        split at hmatch <;> cases hmatch
        have same : found.name = target'.name := by
          simpa using List.find?_some hfound
        exact ⟨same ▸ name, name⟩
      · cases hmatch
    · cases hmatch
  factories f hf := by
    obtain ⟨m, hm, hok⟩ := Mapping.factory_of_build c hf
    exact (Factory.ofMethod_describes hok).named (h.methods m hm) h.propertyNames

/-- A plan of a pass is of a mapping with names, whose written types are looked up in sources that
were read. -/
theorem mapping_of_compile {inputs : List Input} {compiled : List CompiledType}
    {options : EmitOptions} {result : PassResult} (h : compile inputs compiled options = .ok result)
    {plan : MapPlan} (hp : plan ∈ result.plans) : ∃ (c : Compilation) (m : Mapping),
      c.toInventory.Read ∧ m.Named ∧ plan = (m.plan c).value := by
  obtain ⟨unit, hunit, rfl⟩ := List.mem_map.1 hp
  obtain ⟨files, hfiles, r, hr, rfl⟩ := unit_of_compile h hunit
  have hread := read_of_readSources hfiles
  exact ⟨_, _, Compilation.read_ofSources hread,
    Mapping.build_named _ (Compilation.target_named hread hr), rfl⟩

end StagedMapping
