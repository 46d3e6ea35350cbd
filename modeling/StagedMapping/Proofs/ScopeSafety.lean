import Mathlib
import StagedMapping.Proofs.PlanContents
import StagedMapping.Proofs.StageRecords

/-! Scope safety of plans. No plan of a pass ever fails for want of a name: neither its
default projection, nor the binding of a factory, nor a stage that was bound
(`compile_scopeSafe`). Bound stages are closed functions of their argument, and a member
that a stage reads off its argument is a field of the record that the stage before it made. -/
namespace StagedMapping

/-! ### Names and members of trees -/

namespace Tree

mutual

/-- The names of a tree after a substitution are those of the trees put in. -/
theorem reads_substitute (replace : String → Option Tree) : (t : Tree) →
    (t.substitute replace).reads = t.reads.flatMap fun n => ((replace n).getD (param n)).reads
  | const _ => rfl
  | param name => by simp [substitute, reads]
  | member base name => reads_substitute replace base
  | call receiver method args => by
    simp only [substitute, reads, List.flatMap_append, reads_substitute replace receiver,
      argReads_substitute replace args]
  | cond test yes no => by
    simp only [substitute, reads, List.flatMap_append, reads_substitute replace test,
      reads_substitute replace yes, reads_substitute replace no]
  | binary op lhs rhs => by
    simp only [substitute, reads, List.flatMap_append, reads_substitute replace lhs,
      reads_substitute replace rhs]
  | unary op operand => reads_substitute replace operand
  | init typeName bindings => bindingReads_substitute replace bindings

theorem argReads_substitute (replace : String → Option Tree) : (ts : List Tree) →
    argReads (substituteArgs replace ts) =
      (argReads ts).flatMap fun n => ((replace n).getD (param n)).reads
  | [] => rfl
  | t :: rest => by
    simp only [substituteArgs, argReads, List.flatMap_append, reads_substitute replace t,
      argReads_substitute replace rest]

theorem bindingReads_substitute (replace : String → Option Tree) : (bs : List (String × Tree)) →
    bindingReads (substituteBindings replace bs) =
      (bindingReads bs).flatMap fun n => ((replace n).getD (param n)).reads
  | [] => rfl
  | (name, t) :: rest => by
    simp only [substituteBindings, bindingReads, List.flatMap_append, reads_substitute replace t,
      bindingReads_substitute replace rest]

end

theorem bindingReads_eq_flatMap (bs : List (String × Tree)) :
    bindingReads bs = bs.flatMap (·.2.reads) := by
  induction bs with
  | nil => rfl
  | cons b rest ih => rw [bindingReads, ih, List.flatMap_cons]

/-- The tree is a name. -/
def isParam (name : String) : Tree → Bool
  | param other => other == name
  | _ => false

mutual

/-- The members that a tree reads off a name. -/
def members (name : String) : Tree → List String
  | const _ => []
  | param _ => []
  | member base field => (if base.isParam name then [field] else []) ++ members name base
  | call receiver _ args => members name receiver ++ argMembers name args
  | cond test yes no => members name test ++ members name yes ++ members name no
  | binary _ lhs rhs => members name lhs ++ members name rhs
  | unary _ operand => members name operand
  | init _ bindings => bindingMembers name bindings

def argMembers (name : String) : List Tree → List String
  | [] => []
  | t :: rest => members name t ++ argMembers name rest

def bindingMembers (name : String) : List (String × Tree) → List String
  | [] => []
  | (_, t) :: rest => members name t ++ bindingMembers name rest

end

theorem bindingMembers_eq_flatMap (name : String) (bs : List (String × Tree)) :
    bindingMembers name bs = bs.flatMap (·.2.members name) := by
  induction bs with
  | nil => rfl
  | cons b rest ih => rw [bindingMembers, ih, List.flatMap_cons]

/-- What is put in for the names of a tree is no name itself, so it brings its own members
and the tree none. -/
theorem isParam_substitute {replace : String → Option Tree} {name : String} {t : Tree}
    (h : ∀ n ∈ t.reads, ((replace n).getD (param n)).isParam name = false) :
    (t.substitute replace).isParam name = false := by
  cases t with
  | param n => exact h n (List.mem_singleton.2 rfl)
  | _ => rfl

mutual

theorem members_substitute {replace : String → Option Tree} {name : String} : (t : Tree) →
    (∀ n ∈ t.reads, ((replace n).getD (param n)).isParam name = false) →
    (t.substitute replace).members name =
      t.reads.flatMap fun n => ((replace n).getD (param n)).members name
  | const _, _ => rfl
  | param n, _ => by simp [substitute, reads]
  | member base field, h => by
    have hbase := isParam_substitute (t := base) h
    simp only [substitute, members, hbase, Bool.false_eq_true, if_false, List.nil_append, reads]
    exact members_substitute base h
  | call receiver method args, h => by
    simp only [substitute, members, reads, List.flatMap_append,
      members_substitute receiver fun n hn => h n (List.mem_append_left _ hn),
      argMembers_substitute args fun n hn => h n (List.mem_append_right _ hn)]
  | cond test yes no, h => by
    simp only [substitute, members, reads, List.flatMap_append,
      members_substitute test fun n hn => h n (by simp [reads, hn]),
      members_substitute yes fun n hn => h n (by simp [reads, hn]),
      members_substitute no fun n hn => h n (by simp [reads, hn])]
  | binary op lhs rhs, h => by
    simp only [substitute, members, reads, List.flatMap_append,
      members_substitute lhs fun n hn => h n (List.mem_append_left _ hn),
      members_substitute rhs fun n hn => h n (List.mem_append_right _ hn)]
  | unary op operand, h => members_substitute operand h
  | init typeName bindings, h => bindingMembers_substitute bindings h

theorem argMembers_substitute {replace : String → Option Tree} {name : String} :
    (ts : List Tree) →
    (∀ n ∈ argReads ts, ((replace n).getD (param n)).isParam name = false) →
    argMembers name (substituteArgs replace ts) =
      (argReads ts).flatMap fun n => ((replace n).getD (param n)).members name
  | [], _ => rfl
  | t :: rest, h => by
    simp only [substituteArgs, argMembers, argReads, List.flatMap_append,
      members_substitute t fun n hn => h n (List.mem_append_left _ hn),
      argMembers_substitute rest fun n hn => h n (List.mem_append_right _ hn)]

theorem bindingMembers_substitute {replace : String → Option Tree} {name : String} :
    (bs : List (String × Tree)) →
    (∀ n ∈ bindingReads bs, ((replace n).getD (param n)).isParam name = false) →
    bindingMembers name (substituteBindings replace bs) =
      (bindingReads bs).flatMap fun n => ((replace n).getD (param n)).members name
  | [], _ => rfl
  | (_, t) :: rest, h => by
    simp only [substituteBindings, bindingMembers, bindingReads, List.flatMap_append,
      members_substitute t fun n hn => h n (List.mem_append_left _ hn),
      bindingMembers_substitute rest fun n hn => h n (List.mem_append_right _ hn)]

end

end Tree

/-! ### Closed functions -/

/-- A function without free names. -/
def Lambda.Closed (l : Lambda) : Prop := ∀ n ∈ l.body.reads, n = l.param

theorem Lambda.Closed.apply_bound {l : Lambda} (h : l.Closed) (v : Value) :
    Eval.Bound (l.apply v) :=
  Tree.eval_bound _ fun n hn => List.mem_singleton.2 (h n hn)

/-- A binding does not fail for want of a name, and the stages that it makes are closed and
read fields of the records that the stages before them made. -/
structure FactoryPlan.ScopeSafe (p : FactoryPlan) : Prop where
  bind : ∀ args name, p.bind args ≠ .error (.eval (.unbound name))
  closed : ∀ args stages, p.bind args = .ok stages → ∀ l ∈ stages, l.Closed
  bound : ∀ args stages, p.bind args = .ok stages → ∀ l ∈ stages, ∀ v, Eval.Bound (l.apply v)
  members : ∀ args stages, p.bind args = .ok stages →
    ∀ before l after, stages = before ++ l :: after → before ≠ [] →
      ∀ s v, applyStages before s = .ok v →
        ∀ n ∈ l.body.members l.param, ∃ w, v.member n = .ok w

structure MapPlan.ScopeSafe (p : MapPlan) : Prop where
  default : ∀ v, Eval.Bound (p.defaultStage.apply v)
  factories : ∀ f ∈ p.factories, f.ScopeSafe

namespace Mapping

/-! ### Stages -/

/-- What the bindings of a construction have is of an initializer, or of a filled property. -/
theorem mem_construction {m : Mapping} {c : Compilation} {explicit : List (String × Tree)}
    {fallback : String → Tree} {g : Tree → List String} {n : String}
    (hn : n ∈ ((m.targetProperties c).filterMap (m.propertyBinding? explicit fallback)).flatMap
      (g ·.2)) :
    (∃ e ∈ explicit, n ∈ g e.2) ∨ ∃ p, n ∈ g (fallback p) := by
  obtain ⟨b, hb, hn⟩ := List.mem_flatMap.1 hn
  obtain ⟨name, -, hname⟩ := List.mem_filterMap.1 hb
  rw [propertyBinding?] at hname
  split at hname
  · next t ht =>
    cases hname
    exact .inl ⟨(name, t), Bindings.mem_of_get? ht, hn⟩
  · obtain ⟨p, -, rfl⟩ := Option.map_eq_some_iff.1 hname
    exact .inr ⟨p.source.name, hn⟩

theorem construction_reads {m : Mapping} {c : Compilation} {explicit : List (String × Tree)}
    {fallback : String → Tree} {n : String}
    (hn : n ∈ (m.construction c explicit fallback).reads) :
    (∃ e ∈ explicit, n ∈ e.2.reads) ∨ ∃ p, n ∈ (fallback p).reads := by
  rw [construction, Tree.reads, Tree.bindingReads_eq_flatMap] at hn
  exact mem_construction hn

theorem construction_members {m : Mapping} {c : Compilation} {explicit : List (String × Tree)}
    {fallback : String → Tree} {n of : String}
    (hn : n ∈ (m.construction c explicit fallback).members of) :
    (∃ e ∈ explicit, n ∈ e.2.members of) ∨ ∃ p, n ∈ (fallback p).members of := by
  rw [construction, Tree.members, Tree.bindingMembers_eq_flatMap] at hn
  exact mem_construction hn

theorem stageField_members (n : String) :
    (stageField n).members Convention.stageParameter = [n] := by
  rw [stageField, Tree.members, Tree.isParam, if_pos (beq_self_eq_true _)]
  rfl

section
variable {fields : List (String × String)} {t : Tree} (h : ∀ n ∈ t.reads, n ∈ fields.map (·.1))
include h

theorem overFields_reads : ∀ n ∈ (overFields fields t).reads, n = Convention.stageParameter := by
  intro n hn
  rw [overFields, Tree.reads_substitute] at hn
  obtain ⟨k, hk, hn⟩ := List.mem_flatMap.1 hn
  rw [overFields_name (h k hk)] at hn
  exact List.mem_singleton.1 hn

theorem overFields_members :
    ∀ n ∈ (overFields fields t).members Convention.stageParameter, n ∈ fields.map (·.1) := by
  intro n hn
  rw [overFields, Tree.members_substitute t fun k hk => by rw [overFields_name (h k hk)]; rfl] at hn
  obtain ⟨k, hk, hn⟩ := List.mem_flatMap.1 hn
  rw [overFields_name (h k hk), stageField_members] at hn
  rw [List.mem_singleton.1 hn]
  exact h k hk

end

section
variable (m : Mapping) (c : Compilation) (f : Factory)

theorem varsStage_closed (typeName : String) :
    (varsStage typeName (m.fields c f) (m.lower c f).value.vars).Closed := by
  intro n hn
  rw [varsStage, Tree.reads, Tree.bindingReads_eq_flatMap, List.flatMap_append] at hn
  rcases List.mem_append.1 hn with hn | hn
  · obtain ⟨b, hb, hn⟩ := List.mem_flatMap.1 hn
    obtain ⟨x, -, rfl⟩ := List.mem_map.1 hb
    exact List.mem_singleton.1 hn
  · obtain ⟨b, hb, hn⟩ := List.mem_flatMap.1 hn
    obtain ⟨v, hv, rfl⟩ := List.mem_map.1 hb
    exact overFields_reads (m.vars_fields c f v hv) n hn

theorem varsStage_members (typeName : String) : ∀ n ∈
    (varsStage typeName (m.fields c f) (m.lower c f).value.vars).body.members
      Convention.stageParameter, n ∈ (m.fields c f).map (·.1) := by
  intro n hn
  rw [varsStage, Tree.members, Tree.bindingMembers_eq_flatMap, List.flatMap_append] at hn
  rcases List.mem_append.1 hn with hn | hn
  · obtain ⟨b, hb, hn⟩ := List.mem_flatMap.1 hn
    obtain ⟨x, hx, rfl⟩ := List.mem_map.1 hb
    rw [stageField_members] at hn
    exact List.mem_singleton.1 hn ▸ List.mem_map_of_mem hx
  · obtain ⟨b, hb, hn⟩ := List.mem_flatMap.1 hn
    obtain ⟨v, hv, rfl⟩ := List.mem_map.1 hb
    exact overFields_members (m.vars_fields c f v hv) n hn

theorem properties_allFields : ∀ p ∈ (m.lower c f).value.properties, ∀ n ∈ p.2.reads,
    n ∈ (m.allFields c f).map (·.1) := by
  rw [allFields_names]
  exact m.properties_fields c f

theorem lastStage_closed : (m.lastStage c f (m.allFields c f)).Closed := by
  intro n hn
  rcases construction_reads hn with ⟨e, he, hn⟩ | ⟨p, hn⟩
  · obtain ⟨x, hx, rfl⟩ := List.mem_map.1 he
    exact overFields_reads (m.properties_allFields c f x hx) n hn
  · exact List.mem_singleton.1 hn

theorem lastStage_members : ∀ n ∈ (m.lastStage c f (m.allFields c f)).body.members
    Convention.stageParameter, n ∈ (m.allFields c f).map (·.1) := by
  intro n hn
  rcases construction_members hn with ⟨e, he, hn⟩ | ⟨p, hn⟩
  · obtain ⟨x, hx, rfl⟩ := List.mem_map.1 he
    exact overFields_members (m.properties_allFields c f x hx) n hn
  · have hn : n ∈ (stageField f.sourceParam).members Convention.stageParameter := hn
    rw [stageField_members] at hn
    rw [List.mem_singleton.1 hn, allFields_names]
    exact List.mem_append_left _ (m.source_mem_fields c f)

theorem boundParams_closed {scope : Scope} (hs : ∀ n ∈ f.boundNames, n ∈ Bindings.names scope) :
    ((m.factoryPlan c f).boundParams scope).Closed := by
  intro n hn
  rw [boundParams_body, Tree.reads, Tree.bindingReads_eq_flatMap] at hn
  obtain ⟨b, hb, hn⟩ := List.mem_flatMap.1 hn
  obtain ⟨x, hx, rfl⟩ := List.mem_map.1 hb
  by_cases he : x.1 = f.sourceParam
  · rw [he, boundField_source] at hn
    exact List.mem_singleton.1 hn
  · obtain ⟨v, hv, -⟩ := m.boundField_other c f hs (List.mem_map_of_mem hx) he
    rw [hv] at hn
    cases hn

/-! ### Bound stages -/

/-- The stages that a binding makes. -/
theorem stages_of_bind {args : Args} {stages : List Lambda}
    (hb : (m.factoryPlan c f).bind args = .ok stages) (h : f.Scoped) : ∃ scope,
      (∀ n ∈ f.boundNames, n ∈ Bindings.names scope) ∧
      stages = (m.factoryPlan c f).boundStages scope := by
  obtain ⟨scope, hscope, rfl⟩ := FactoryPlan.bind_eq_ok.1 hb
  exact ⟨scope, (m.boundScope_binds c h args).after scope hscope, rfl⟩

theorem bind_safe (h : f.Scoped) (args : Args) (name : String) :
    (m.factoryPlan c f).bind args ≠ .error (.eval (.unbound name)) := by
  intro hb
  rw [FactoryPlan.bind] at hb
  cases hscope : (m.factoryPlan c f).boundScope args with
  | ok scope => rw [hscope] at hb; cases hb
  | error e =>
    rw [hscope] at hb
    cases hb
    exact (m.boundScope_binds c h args).safe name hscope

theorem stages_closed {scope : Scope} (hs : ∀ n ∈ f.boundNames, n ∈ Bindings.names scope) :
    ∀ l ∈ (m.factoryPlan c f).boundStages scope, l.Closed := by
  intro l hl
  rw [FactoryPlan.boundStages, List.cons_append, List.mem_cons, List.mem_append, List.mem_singleton] at hl
  rcases hl with rfl | hl | rfl
  · exact m.boundParams_closed c f hs
  · by_cases hv : f.vars = []
    · rw [m.varsStage_of_nil c f hv] at hl
      cases hl
    · rw [m.varsStage_of_ne_nil c f hv] at hl
      cases List.mem_singleton.1 hl
      exact m.varsStage_closed c f _
  · rw [finalStage_eq]
    exact m.lastStage_closed c f

/-- A member that a stage after the first reads off its argument is there. -/
theorem stages_members {scope : Scope} (hs : ∀ n ∈ f.boundNames, n ∈ Bindings.names scope)
    {first l : Lambda} {before after : List Lambda}
    (he : (m.factoryPlan c f).boundStages scope = first :: before ++ l :: after)
    {s v : Value} (hv : applyStages (first :: before) s = .ok v) :
    ∀ n ∈ l.body.members l.param, ∃ w, v.member n = .ok w := by
  -- the argument of the stage is one of the two records
  obtain ⟨r, hr, hfirst⟩ := m.firstRecord c f hs s
  have hsecond := fun hvars => m.secondRecord c f hs hvars (s := s) (r := v)
  rw [he] at hr hsecond
  rw [FactoryPlan.boundStages, List.cons_append, List.cons_append, List.cons_eq_cons,
    finalStage_eq] at he
  by_cases hvars : f.vars = []
  · rw [m.varsStage_of_nil c f hvars] at he
    cases before with
    | nil =>
      obtain ⟨rfl, he⟩ := he
      cases he
      cases hr.symm.trans hv
      intro n hn
      have hn := m.lastStage_members c f n hn
      rw [allFields, hvars, List.map_nil, List.append_nil] at hn
      exact hfirst.exists_member hn
    | cons b rest => simp at he
  · rw [m.varsStage_of_ne_nil c f hvars] at he
    cases before with
    | nil =>
      obtain ⟨rfl, he⟩ := he
      cases he
      cases hr.symm.trans hv
      exact fun n hn => hfirst.exists_member (m.varsStage_members c f _ n hn)
    | cons b rest =>
      cases rest with
      | nil =>
        obtain ⟨rfl, he⟩ := he
        cases he
        obtain ⟨values, -, hholds⟩ := hsecond hvars hv
        exact fun n hn => hholds.exists_member (m.lastStage_members c f n hn)
      | cons b' rest => simp at he

theorem factoryPlan_scopeSafe (h : f.Scoped) : (m.factoryPlan c f).ScopeSafe where
  bind := m.bind_safe c f h
  closed := by
    intro args stages hb
    obtain ⟨scope, hs, rfl⟩ := m.stages_of_bind c f hb h
    exact m.stages_closed c f hs
  bound := by
    intro args stages hb
    obtain ⟨scope, hs, rfl⟩ := m.stages_of_bind c f hb h
    exact fun l hl => (m.stages_closed c f hs l hl).apply_bound
  members := by
    intro args stages hb before l after he hne s v hv
    obtain ⟨scope, hs, rfl⟩ := m.stages_of_bind c f hb h
    cases before with
    | nil => exact absurd rfl hne
    | cons first rest => exact m.stages_members c f hs he hv

/-! ### Default projections -/

theorem defaultStage_closed : m.defaultStage.Closed := by
  intro n hn
  rw [defaultStage, Tree.reads, Tree.bindingReads_eq_flatMap] at hn
  obtain ⟨b, hb, hn⟩ := List.mem_flatMap.1 hn
  obtain ⟨p, -, rfl⟩ := List.mem_map.1 hb
  exact List.mem_singleton.1 hn

theorem degenerateStage_closed : (m.degenerateStage c f).value.Closed := by
  intro n hn
  rcases construction_reads hn with ⟨e, he, hn⟩ | ⟨p, hn⟩
  · obtain ⟨t, ht, rfl⟩ := List.mem_map.1 he
    rw [initializerTrees, Noted.mapM_value] at ht
    obtain ⟨i, -, rfl⟩ := List.mem_map.1 ht
    rw [Tree.reads_substitute] at hn
    obtain ⟨k, hk, hn⟩ := List.mem_flatMap.1 hn
    -- only the source is read, and it is renamed
    rw [if_pos (List.mem_singleton.1 ((m.lowering c f).expr_reads _ i.value k hk))] at hn
    exact List.mem_singleton.1 hn
  · exact List.mem_singleton.1 hn

end

/-- No plan of a mapping that was built fails for want of a name. -/
theorem plan_scopeSafe (c : Compilation) (source target : Descriptor) (declared : DeclaredAt) :
    ((Mapping.build c source target declared).value.plan c).value.ScopeSafe where
  default := by
    refine Lambda.Closed.apply_bound ?_
    rcases (Mapping.build c source target declared).value.plan_defaultStage c with
      hstage | ⟨f, -, -, hstage⟩
    · rw [hstage]
      exact defaultStage_closed _
    · have hclosed := degenerateStage_closed (Mapping.build c source target declared).value c f
      rw [hstage] at hclosed
      exact hclosed
  factories := by
    intro p hp
    obtain ⟨f, hf, -, -, rfl⟩ := Mapping.mem_plan _ c hp
    obtain ⟨method, -, hmethod⟩ := Mapping.factory_of_build c hf
    exact factoryPlan_scopeSafe _ c f (Factory.ofMethod_describes hmethod).scoped

end Mapping

/-- No plan of a pass fails for want of a name, and the records of its stages have the
members that the next stage reads. -/
theorem compile_scopeSafe {inputs : List Input} {compiled : List CompiledType}
    {options : EmitOptions} {result : PassResult}
    (h : compile inputs compiled options = .ok result) :
    ∀ plan ∈ result.plans, plan.ScopeSafe := by
  intro plan hp
  obtain ⟨c, source, target, declared, rfl⟩ := plan_of_compile h hp
  exact Mapping.plan_scopeSafe c source target declared

/-- A type that is mapped to itself by a factory with a parameter. It is declared twice, so
the pass leaves no code. -/
def Sample.input : Input :=
  ⟨"m", "class A:\n def map(a: A, k: A) -> A:\n  return new A()\n@map_from(A)\nclass A:\n pass\n"⟩

theorem compile_scopeSafe_input : ∃ result, compile [Sample.input] [] .default = .ok result ∧
    ∀ plan ∈ result.plans, plan.ScopeSafe := by
  obtain ⟨files, hread, hproblem⟩ : ∃ files, readSources [Sample.input] = .ok files ∧
      (Compilation.ofSources files []).problems.any (·.problem.isError) = true := by
    refine ⟨?files, ?hread, ?hproblem⟩
    case hread =>
      refine @readSources_single _ _ _ ?content rfl ?parsed
      case parsed =>
        rw [Source.Module.parse, lex, String.toList_ofList]
        cbv
        rfl
    case hproblem => rfl
  obtain ⟨result, hresult, -⟩ :
      ∃ result, compile [Sample.input] [] .default = .ok result ∧ result.code = none := by
    rw [compile, hread]
    exact compileSources_of_problem hproblem
  exact ⟨result, hresult, compile_scopeSafe hresult⟩

end StagedMapping
