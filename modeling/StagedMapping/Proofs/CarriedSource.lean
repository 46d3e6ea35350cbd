import StagedMapping.Proofs.WrittenOrder

/-! The source in the records of stages. The first record holds the source under its name,
whatever the names of parameters and captures are, and the second copies it. A variable may
have the name of the source as well; then its value takes the place of the source, and the
default mapping reads from it (`Mapping.Carries`, `Factory.source_carried`). -/
namespace StagedMapping

namespace Mapping

/-! ### Values of variables -/

section
variable {m : Mapping} {c : Compilation} {f : Factory} {env : Scope}
  {values : List (String × Value)} (h : m.varValues c f env = .ok values)
include h

theorem varValues_other {n : String} (hn : n ∉ f.vars.map (·.name)) :
    Bindings.get? (Bindings.setAll env values) n = Bindings.get? env n :=
  Bindings.get?_setAll_other (m.varValues_names c f h ▸ hn) env

/-- Of several variables with one name the last counts; its value is what its initializer
gives, whatever type is written with it. -/
theorem varValues_last (hn : (m.lower c f).notes = []) {n : String} {v : Variable}
    (hv : f.vars.reverse.find? (·.name == n) = some v) : ∃ w,
      v.value.eval (m.types c) env = .ok w ∧
      Bindings.get? (Bindings.setAll env values) n = some w := by
  have htree : Bindings.get? (m.lower c f).value.vars.reverse n =
      some ((m.lowering c f).expr (visible f) v.value).value := by
    rw [lower_vars, ← List.map_reverse, Bindings.get?, List.find?_map]
    show Option.map _ ((f.vars.reverse.find? (·.name == n)).map _) = _
    rw [hv]
    rfl
  obtain ⟨w, hw, hget⟩ := Bindings.get?_of_mapM (mapM_reverse_eq_ok h) htree
  have hmem : v ∈ f.vars := List.mem_reverse.1 (List.mem_of_find?_eq_some hv)
  have heval := (m.lowering c f).expr_eval (visible f) env v.value
    ((notes_of_lower hn).2.2.1 v hmem)
  exact ⟨w, heval.symm.trans hw, by rw [Bindings.get?_setAll, hget, Option.some_or]⟩

end

/-! ### What is filled in -/

section
variable {m : Mapping} {given : String → Option (Eval Value)} {filled : String → Eval Value}
  {name : String}

theorem targetFields_cons_other {n : String} (he : n ≠ name) {rest : List String}
    {fields after : List (String × Value)}
    (h : m.targetFields given filled fields (n :: rest) = .ok after) : ∃ between,
      m.targetFields given filled between rest = .ok after ∧
      Bindings.get? between name = Bindings.get? fields name := by
  rw [targetFields] at h
  split at h
  · obtain ⟨v, -, h⟩ := bind_eq_ok.1 h
    exact ⟨_, h, Bindings.get?_set_other fields v he⟩
  · obtain ⟨v, -, h⟩ := bind_eq_ok.1 h
    exact ⟨_, h, Bindings.get?_set_other fields v he⟩
  · exact ⟨fields, h, rfl⟩

variable (hg : given name = none) {p : MatchedProperty}
  (hp : m.properties.find? (·.target.name == name) = some p)
include hg hp

/-- A property that is not given has the value that is filled in for it. -/
theorem targetFields_filled {names : List String} {fields after : List (String × Value)}
    (h : m.targetFields given filled fields names = .ok after)
    (hn : name ∈ names ∨ ∃ v, filled p.source.name = .ok v ∧ Bindings.get? fields name = some v) :
    ∃ v, filled p.source.name = .ok v ∧ Bindings.get? after name = some v := by
  induction names generalizing fields with
  | nil =>
    cases h
    exact hn.resolve_left nofun
  | cons n rest ih =>
    by_cases he : n = name
    · subst he
      rw [targetFields, hg, hp] at h
      obtain ⟨v, hv, h⟩ := bind_eq_ok.1 h
      exact ih h (.inr ⟨v, hv, Bindings.get?_set_same ..⟩)
    · obtain ⟨between, h, hget⟩ := targetFields_cons_other he h
      exact ih h (hget ▸ hn.imp_left fun hn => (List.mem_cons.1 hn).resolve_left (Ne.symm he))

theorem targetRecord_filled {c : Compilation} (hname : name ∈ m.targetProperties c) {r : Value}
    (h : m.targetRecord c given filled = .ok r) : r.member name = filled p.source.name := by
  obtain ⟨after, hafter, hr⟩ := bind_eq_ok.1 h
  cases hr
  obtain ⟨v, hv, hget⟩ := targetFields_filled hg hp hafter (.inl hname)
  rw [hv, Value.member, hget]

end

/-! ### The source -/

variable (m : Mapping) (c : Compilation) (f : Factory)

/-- Stages that are applied to a value carry one under the name of the source: the record of
the variables holds it there, and what the factory leaves to the default mapping is read from
it. -/
structure Carries (stages : List Lambda) (s w : Value) : Prop where
  vars : f.vars ≠ [] → ∀ r, applyStages (stages.take 2) s = .ok r →
    r.member f.sourceParam = .ok w
  filled : ∀ r, applyStages stages s = .ok r → ∀ name ∈ m.targetProperties c,
    (∀ i ∈ f.initializers, i.target.name ≠ name) → ∀ p,
      m.properties.find? (·.target.name == name) = some p → r.member name = w.member p.source.name

variable {m c f}

/-- What the variables leave under the name of the source is carried. -/
theorem carries_of_get? {scope : Scope} (hs : ∀ n ∈ f.boundNames, n ∈ Bindings.names scope)
    {s w : Value} (hw : ∀ values,
      m.varValues c f (Bindings.set scope f.sourceParam s) = .ok values →
      Bindings.get? (Bindings.setAll (Bindings.set scope f.sourceParam s) values) f.sourceParam =
        some w) : m.Carries c f ((m.factoryPlan c f).boundStages scope) s w where
  vars hv r hr := by
    obtain ⟨values, hvalues, hholds⟩ := m.secondRecord c f hs hv hr
    refine hholds.member ?_ (hw values hvalues)
    rw [allFields_names]
    exact List.mem_append_left _ (m.source_mem_fields c f)
  filled r hr name hname hfree p hp := by
    rw [m.applyStages_eq_unstaged c f hs, unstaged] at hr
    obtain ⟨values, hvalues, hr⟩ := bind_eq_ok.1 hr
    have hfree : Bindings.get? (m.lower c f).value.properties name = none := by
      rw [lower_properties, Bindings.get?, List.find?_eq_none.2, Option.map_none]
      intro x hx
      obtain ⟨i, hi, rfl⟩ := List.mem_map.1 hx
      simpa using hfree i hi
    rw [targetRecord_filled (by rw [hfree]; rfl) hp hname hr, Tree.eval, hw values hvalues]
    rfl

end Mapping

/-- The first stage of a factory holds the source under its name, for all arguments that are
bound. If no variable has this name, the record of the variables holds it too and the default
mapping reads from it. Else they take the value of the last such variable for the source. -/
theorem Factory.source_carried {c : Compilation} {source target : Descriptor}
    {declared : DeclaredAt} {method : Method} {f : Factory}
    (hf : Factory.ofMethod c source target declared method = .ok f) (m : Mapping)
    (hn : (m.lower c f).notes = []) {args : Args} {stages : List Lambda}
    (hb : (m.factoryPlan c f).bind args = .ok stages) :
    ∃ scope, (m.factoryPlan c f).boundScope args = .ok scope ∧ ∀ s,
      (∃ r, applyStages (stages.take 1) s = .ok r ∧ r.member f.sourceParam = .ok s) ∧
      (f.sourceParam ∉ f.vars.map (·.name) → m.Carries c f stages s s) ∧
      ∀ v w, f.vars.reverse.find? (·.name == f.sourceParam) = some v →
        v.value.eval (m.types c) (Bindings.set scope f.sourceParam s) = .ok w →
        m.Carries c f stages s w := by
  obtain ⟨scope, hscope, rfl⟩ := FactoryPlan.bind_eq_ok.1 hb
  have hs := (m.boundScope_binds c (Factory.ofMethod_describes hf).scoped args).after scope hscope
  refine ⟨scope, hscope, fun s => ⟨?first, fun hnone => ?unnamed, fun v w hv hw => ?named⟩⟩
  case first =>
    obtain ⟨r, hr, hholds⟩ := m.firstRecord c f hs s
    exact ⟨r, hr, hholds.member (m.source_mem_fields c f) (Bindings.get?_set_same ..)⟩
  case unnamed =>
    refine Mapping.carries_of_get? hs fun values hvalues => ?_
    rw [Mapping.varValues_other hvalues hnone, Bindings.get?_set_same]
  case named =>
    refine Mapping.carries_of_get? hs fun values hvalues => ?_
    obtain ⟨x, hx, hget⟩ := Mapping.varValues_last hvalues hn hv
    rw [hx] at hw
    cases hw
    exact hget

theorem Factory.source_carried_samples :
    (∃ f stages, Factory.ofMethod Sample.compilation Sample.user Sample.target ⟨0, Sample.place⟩
        Sample.clashing = .ok f ∧
      (Sample.mapping.factoryPlan Sample.compilation f).bind [some (.bool true)] = .ok stages ∧
      ∀ s, Sample.mapping.Carries Sample.compilation f stages s s) ∧
    ∃ f stages, Factory.ofMethod Sample.compilation Sample.user Sample.target ⟨0, Sample.place⟩
        Sample.renamed = .ok f ∧
      (Sample.mapping.factoryPlan Sample.compilation f).bind [some (.bool true)] = .ok stages ∧
      Sample.mapping.Carries Sample.compilation f stages Sample.person (.str "n") := by
  refine ⟨⟨_, _, rfl, rfl, fun s => ?_⟩, ⟨_, _, rfl, rfl, ?_⟩⟩
  · obtain ⟨scope, -, h⟩ := Factory.source_carried (rfl : Factory.ofMethod Sample.compilation
      Sample.user Sample.target ⟨0, Sample.place⟩ Sample.clashing = .ok _) Sample.mapping rfl
      (rfl : FactoryPlan.bind _ [some (.bool true)] = .ok _)
    exact (h s).2.1 (by decide)
  · obtain ⟨scope, hscope, h⟩ := Factory.source_carried (rfl : Factory.ofMethod Sample.compilation
      Sample.user Sample.target ⟨0, Sample.place⟩ Sample.renamed = .ok _) Sample.mapping rfl
      (rfl : FactoryPlan.bind _ [some (.bool true)] = .ok _)
    obtain rfl : [("b", Value.bool true)] = scope := Except.ok.inj hscope
    exact (h Sample.person).2.2 _ _ rfl rfl

/-- A factory is accepted whose variable has the name of the source: the record of the
variables does not hold the source there, and a property that is filled in from it fails. -/
theorem Factory.source_not_carried : ∃ f stages record e,
    Factory.ofMethod Sample.compilation Sample.user Sample.target ⟨0, Sample.place⟩
        Sample.renamed = .ok f ∧
      (Sample.mapping.lower Sample.compilation f).notes = [] ∧
      (Sample.mapping.factoryPlan Sample.compilation f).bind [some (.bool true)] = .ok stages ∧
      applyStages (stages.take 2) Sample.person = .ok record ∧
      record.member f.sourceParam = .ok (.str "n") ∧
      Sample.person.member "age" = .ok (.int 3) ∧
      applyStages stages Sample.person = .error e :=
  ⟨_, _, _, _, rfl, rfl, rfl, rfl, rfl, rfl, rfl⟩

end StagedMapping
