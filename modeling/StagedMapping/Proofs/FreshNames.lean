import StagedMapping.Proofs.PlanContents
import StagedMapping.Proofs.StageRecords

/-! The name of the first stage's argument. A search for a fresh name tries the base, then the
base with one number after the other, and nothing bounds it (`NameSearch`). It ends all the same:
the names it tries are different, so one of the first is not taken (`freshName_search`). The
argument of a planned first stage thus has a name that no parameter and no capture has, and a
binding puts a constant for each of these but never for the source
(`freshName_keeps_source`). -/
namespace StagedMapping

/-! ### The search -/

/-- The names that are tried: the base, then the base with a number. -/
def triedName (base : String) : Nat → String
  | 0 => base
  | i + 1 => base ++ toString (i + 1)

/-- A search from one of these names on: how many it tries, and the one that it ends with. -/
inductive NameSearch (base : String) (taken : List String) : Nat → Nat → String → Prop
  | free {i : Nat} (h : triedName base i ∉ taken) : NameSearch base taken i 1 (triedName base i)
  | next {i tries : Nat} {name : String} (h : triedName base i ∈ taken)
    (rest : NameSearch base taken (i + 1) tries name) : NameSearch base taken i (tries + 1) name

namespace NameSearch
variable {base name other : String} {taken : List String} {i tries more : Nat}

theorem not_taken (h : NameSearch base taken i tries name) : name ∉ taken := by
  induction h with
  | free h => exact h
  | next _ _ ih => exact ih

/-- A search ends in one way only. -/
theorem unique (h : NameSearch base taken i tries name) (h' : NameSearch base taken i more other) :
    more = tries ∧ other = name := by
  induction h generalizing more with
  | free hfree =>
    cases h' with
    | free _ => exact ⟨rfl, rfl⟩
    | next htaken _ => exact absurd htaken hfree
  | next htaken _ ih =>
    cases h' with
    | free hfree => exact absurd htaken hfree
    | next _ rest =>
      obtain ⟨rfl, rfl⟩ := ih rest
      exact ⟨rfl, rfl⟩

/-- The first name that is not taken ends the search. -/
theorem of_first {k : Nat} (htaken : ∀ j < k, triedName base (i + j) ∈ taken)
    (hfree : triedName base (i + k) ∉ taken) :
    NameSearch base taken i (k + 1) (triedName base (i + k)) := by
  induction k generalizing i with
  | zero => exact .free hfree
  | succ k ih =>
    have hshift (j : Nat) : i + 1 + j = i + (j + 1) := by omega
    have rest : NameSearch base taken (i + 1) (k + 1) (triedName base (i + 1 + k)) :=
      ih (fun j hj => hshift j ▸ htaken (j + 1) (by omega)) (hshift k ▸ hfree)
    rw [hshift] at rest
    exact .next (htaken 0 (Nat.zero_lt_succ k)) rest

end NameSearch

theorem freshName_eq_find (base : String) (taken : List String) : freshName base taken =
    (((List.range (taken.length + 1)).map (triedName base)).find? (!taken.contains ·)).getD base := by
  rw [List.range_succ_eq_map, List.map_cons, List.map_map]
  rfl

/-- A fresh name is the first of those tried that is not taken, and comes among the first of
them: there is one more than there are taken names. -/
theorem exists_freshName_eq (base : String) (taken : List String) : ∃ n ≤ taken.length,
    freshName base taken = triedName base n ∧ ∀ j < n, triedName base j ∈ taken := by
  have hfresh := freshName_not_taken base taken
  rw [freshName_eq_find, List.find?_map] at hfresh ⊢
  cases hfound : (List.range (taken.length + 1)).find? ((!taken.contains ·) ∘ triedName base) with
  | none =>
    -- then the base is taken too, but it is what the search falls back on
    have hbase : (!!taken.contains base) = true :=
      List.find?_range_eq_none.1 hfound 0 (Nat.zero_lt_succ _)
    rw [hfound] at hfresh
    rw [Bool.not_not] at hbase
    exact absurd (List.contains_iff_mem.1 hbase) hfresh
  | some n =>
    obtain ⟨-, hn, hbefore⟩ := List.find?_range_eq_some.1 hfound
    refine ⟨n, Nat.le_of_lt_succ (List.mem_range.1 hn), rfl, fun j hj => ?_⟩
    simpa using hbefore j hj

/-- The search for a fresh name ends, and tries at most one name more than are taken. -/
theorem freshName_search (base : String) (taken : List String) :
    ∃ tries ≤ taken.length + 1, NameSearch base taken 0 tries (freshName base taken) := by
  obtain ⟨n, hn, hname, hbefore⟩ := exists_freshName_eq base taken
  have hfree : triedName base (0 + n) ∉ taken := by
    rw [Nat.zero_add, ← hname]
    exact freshName_not_taken base taken
  have hsearch := NameSearch.of_first (fun j hj => (Nat.zero_add j).symm ▸ hbefore j hj) hfree
  rw [Nat.zero_add, ← hname] at hsearch
  exact ⟨n + 1, Nat.succ_le_succ hn, hsearch⟩

/-! ### The first stage -/

namespace FactoryPlan

/-- The first stage over the values of names: a constant for each field but the source. -/
def stageOver (p : FactoryPlan) (source : String) (value : String → Value) : Lambda :=
  ⟨p.paramsStage.param, .init p.paramsShape.typeName (p.paramsShape.fields.map fun field =>
    (field.1, if field.1 = source then .param p.paramsStage.param else .const (value field.1)))⟩

/-- What keeps the source in its field of the first record, whatever arguments are bound. -/
structure SourceKept (p : FactoryPlan) (source : String) : Prop where
  fields : p.paramsShape.fields.map (·.1) =
    source :: p.parameters.map (·.name) ++ p.captures.map (·.1)
  /-- The argument of the stage has a name of its own. -/
  apart : ∀ name ∈ p.parameters.map (·.name) ++ p.captures.map (·.1),
    p.paramsStage.param ≠ name
  stage : p.paramsStage.body = .init p.paramsShape.typeName (p.paramsShape.fields.map fun field =>
    (field.1, .param (if field.1 = source then p.paramsStage.param else field.1)))
  /-- Bound, the stage reads its argument where it did before, and nothing else. -/
  bound : ∀ args stages, p.bind args = .ok stages → ∃ scope value,
    p.boundScope args = .ok scope ∧
    (∀ name ∈ p.parameters.map (·.name) ++ p.captures.map (·.1), name ≠ source →
      Bindings.get? scope name = some (value name)) ∧
    stages.head? = some (p.stageOver source value)
  /-- Applied, it puts its argument under the name of the source. -/
  applied : ∀ args stages, p.bind args = .ok stages → ∃ first, stages.head? = some first ∧
    ∀ v, ∃ record, first.apply v = .ok (.record p.paramsShape.typeName record) ∧
      Bindings.get? record source = some v

end FactoryPlan

namespace Mapping
variable (m : Mapping) (c : Compilation) (f : Factory)

theorem factoryPlan_parameters :
    (m.factoryPlan c f).parameters.map (·.name) = f.parameters.map (·.name) :=
  parameterPlans_names (m.lowering c f) [] f.parameters

/-- The fields other than the source are the parameters and the captures. -/
theorem fields_names_eq : (m.fields c f).map (·.1) =
    f.sourceParam :: (m.factoryPlan c f).parameters.map (·.name) ++
      (m.factoryPlan c f).captures.map (·.1) := by
  rw [fields_names, factoryPlan_parameters]
  rfl

/-- A scope that binds what a factory needs makes its first stage one over values. -/
theorem exists_stageOver {scope : Scope} (hs : ∀ n ∈ f.boundNames, n ∈ Bindings.names scope) :
    ∃ value, (∀ n ∈ (m.fields c f).map (·.1), n ≠ f.sourceParam →
        Bindings.get? scope n = some (value n)) ∧
      (m.factoryPlan c f).boundParams scope =
        (m.factoryPlan c f).stageOver f.sourceParam value := by
  let value (n : String) : Value := (Bindings.get? scope n).getD .none
  have hvalue : ∀ n ∈ (m.fields c f).map (·.1), n ≠ f.sourceParam →
      Bindings.get? scope n = some (value n) ∧ m.boundField c f scope n = .const (value n) := by
    intro n hn hother
    obtain ⟨v, hfield, hget⟩ := m.boundField_other c f hs hn hother
    have hv : value n = v := by simp only [value, hget, Option.getD_some]
    rw [hv]
    exact ⟨hget, hfield⟩
  refine ⟨value, fun n hn hother => (hvalue n hn hother).1, ?_⟩
  have hbody : ((m.factoryPlan c f).boundParams scope).body =
      ((m.factoryPlan c f).stageOver f.sourceParam value).body := by
    rw [boundParams_body]
    refine congrArg _ (List.map_congr_left fun field hfield => Prod.ext rfl ?_)
    dsimp only
    split
    · next hsource => rw [hsource, boundField_source]
    · next hother => exact (hvalue _ (List.mem_map_of_mem hfield) hother).2
  exact congrArg (Lambda.mk (m.factoryPlan c f).paramsStage.param) hbody

theorem sourceKept (h : f.Scoped) : (m.factoryPlan c f).SourceKept f.sourceParam where
  fields := m.fields_names_eq c f
  apart name hname := by
    rw [factoryPlan_parameters] at hname
    exact fun he => freshName_not_taken _ _ (he ▸ hname)
  stage := rfl
  bound args stages hb := by
    obtain ⟨scope, hscope, rfl⟩ := FactoryPlan.bind_eq_ok.1 hb
    have hs := (m.boundScope_binds c h args).after scope hscope
    obtain ⟨value, hvalue, hstage⟩ := m.exists_stageOver c f hs
    refine ⟨scope, value, hscope, fun name hname => hvalue name ?_, congrArg some hstage⟩
    rw [fields_names_eq]
    exact List.mem_cons_of_mem _ hname
  applied args stages hb := by
    obtain ⟨scope, hscope, rfl⟩ := FactoryPlan.bind_eq_ok.1 hb
    have hs := (m.boundScope_binds c h args).after scope hscope
    refine ⟨_, rfl, fun v => ?_⟩
    obtain ⟨record, hrecord, hagree⟩ := m.paramsStage_apply c f hs v
    obtain ⟨w, hw, hsource⟩ := hagree _ (m.source_mem_fields c f)
    rw [Bindings.get?_set_same] at hsource
    exact ⟨record, hrecord, hsource ▸ hw⟩

end Mapping

/-- The search for a fresh name ends after at most one try more than names are taken, in one
way, and with a name that is not taken. So the argument of the first stage of a planned factory
has the name of no parameter and of no capture, and whatever arguments are bound, the stage
still puts it under the name of the source. -/
theorem freshName_keeps_source :
    (∀ base taken, freshName base taken ∉ taken ∧ ∃ tries ≤ taken.length + 1, ∀ k name,
      NameSearch base taken 0 k name ↔ k = tries ∧ name = freshName base taken) ∧
    ∀ (c : Compilation) (source target : Descriptor) (declared : DeclaredAt),
      ∀ p ∈ ((Mapping.build c source target declared).value.plan c).value.factories,
        ∃ f ∈ (Mapping.build c source target declared).value.factories,
          p.declaration = f.declaration ∧ p.SourceKept f.sourceParam := by
  constructor
  · intro base taken
    obtain ⟨tries, htries, hsearch⟩ := freshName_search base taken
    refine ⟨hsearch.not_taken, tries, htries, fun k name => ⟨hsearch.unique, ?_⟩⟩
    rintro ⟨rfl, rfl⟩
    exact hsearch
  · intro c source target declared p hp
    obtain ⟨f, hf, -, -, rfl⟩ := Mapping.mem_plan _ c hp
    obtain ⟨method, -, hmethod⟩ := Mapping.factory_of_build c hf
    exact ⟨f, hf, rfl, Mapping.sourceKept _ c f (Factory.ofMethod_describes hmethod).scoped⟩

namespace Sample

/-- A flag of the name that the source would have, and a local of the next one. -/
def crowded : Method := method "u" "x" [given "x1" (text "a")] (name "x1")

def crowdedTarget : Descriptor := { target with methods := [crowded] }

end Sample

theorem freshName_keeps_source_crowded :
    ∃ p ∈ ((Mapping.build Sample.compilation Sample.user Sample.crowdedTarget
        ⟨0, Sample.place⟩).value.plan Sample.compilation).value.factories,
      p.parameters.map (·.name) = ["x"] ∧ p.captures.map (·.1) = ["x1"] ∧
      p.paramsStage.param = "x2" ∧ ∃ source, p.SourceKept source := by
  refine ⟨_, List.mem_cons_self, rfl, rfl, rfl, ?_⟩
  obtain ⟨f, -, -, hkept⟩ := freshName_keeps_source.2 Sample.compilation Sample.user
    Sample.crowdedTarget ⟨0, Sample.place⟩ _ List.mem_cons_self
  exact ⟨f.sourceParam, hkept⟩

end StagedMapping
