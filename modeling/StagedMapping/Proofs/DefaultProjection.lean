import StagedMapping.Proofs.PlanContents
import StagedMapping.Proofs.WrittenOrder

/-! The default projection of a plan, wherever it comes from. Made of properties, it builds a
record of those that the source and the target share, in the order of the target and with the
values of the source (`Mapping.plan_projects_shared`). Made of a degenerate factory, it takes
the source by another name than the factory does; the stages that the factory would otherwise
have are the same function, and are noted to be inexpressible for the same reasons
(`Mapping.degenerateStage_agrees`). Both come of one lowering, and what it reads is the source
alone, so its name does not matter. -/
namespace StagedMapping

/-! ### Names set to what they determine -/

theorem eraseDups_of_nodup {α : Type} [BEq α] [LawfulBEq α] {xs : List α} (h : xs.Nodup) :
    xs.eraseDups = xs := by
  induction xs with
  | nil => rfl
  | cons x rest ih =>
    obtain ⟨hx, hrest⟩ := List.nodup_cons.1 h
    have hself : (rest.filter fun y => !y == x) = rest :=
      List.filter_eq_self.2 fun y hy => by
        have hne : y ≠ x := fun he => hx (he ▸ hy)
        simpa using hne
    rw [List.eraseDups_cons, hself, ih hrest]

namespace Bindings
variable {α : Type} (g : String → α)

theorem set_map (kept : List String) (n : String) :
    set (kept.map fun k => (k, g k)) n (g n) =
      (if n ∈ kept then kept else kept ++ [n]).map fun k => (k, g k) := by
  induction kept with
  | nil => rfl
  | cons k rest ih =>
    rw [List.map_cons, set, ih]
    by_cases h : k = n
    · simp [h]
    · by_cases hm : n ∈ rest <;> simp [h, Ne.symm h, hm]

theorem setAll_map (kept ns : List String) :
    setAll (kept.map fun k => (k, g k)) (ns.map fun k => (k, g k)) =
      (kept ++ (ns.filter (· ∉ kept)).eraseDups).map fun k => (k, g k) := by
  induction ns generalizing kept with
  | nil => simp [setAll]
  | cons n rest ih =>
    rw [List.map_cons, setAll_cons, set_map, ih]
    by_cases h : n ∈ kept
    · simp [h]
    · have hrest : rest.filter (· ∉ kept ++ [n]) =
          (rest.filter (· ∉ kept)).filter fun k => !k == n := by
        rw [List.filter_filter]
        refine List.filter_congr fun k _ => ?_
        by_cases hk : k ∈ kept <;> by_cases hn : k = n <;> simp [hk, hn]
      rw [if_neg h, hrest, List.filter_cons_of_pos (by simpa using h), List.eraseDups_cons,
        List.append_assoc, List.singleton_append]

/-- A name that is set again keeps its first place. -/
theorem setAll_eq_eraseDups (ns : List String) :
    setAll [] (ns.map fun n => (n, g n)) = ns.eraseDups.map fun n => (n, g n) := by
  simpa [List.filter_eq_self.2] using setAll_map g [] ns

end Bindings

/-- A record whose fields have values that their names determine. -/
theorem Tree.evalBindings_values {scope : Scope} (g : String → Value) {bs : List (String × Tree)}
    (h : ∀ b ∈ bs, b.2.eval scope = .ok (g b.1)) (fields : List (String × Value)) :
    evalBindings scope fields bs =
      .ok (Bindings.setAll fields ((Bindings.names bs).map fun n => (n, g n))) := by
  induction bs generalizing fields with
  | nil => rfl
  | cons b rest ih =>
    rw [evalBindings, h b List.mem_cons_self]
    exact ih (fun b hb => h b (List.mem_cons_of_mem _ hb)) _

/-! ### Shared properties -/

namespace Descriptor

/-- A property of a target can be read and written, and the source has one of its name that
can be read. -/
def shares (source : Descriptor) (p : Property) : Bool :=
  p.readable && p.writable && (source.property? p.name).any (·.readable)

/-- The names of shared properties, in the order of the target. -/
def sharedNames (source target : Descriptor) : List String :=
  (target.properties.filter source.shares).map (·.name)

/-- What is matched with a property of a target. -/
structure Matches (source : Descriptor) (p : Property) (q : MatchedProperty) : Prop where
  target : q.target = p
  source : q.source ∈ source.properties
  name : q.source.name = p.name
  readable : q.source.readable = true

theorem matching?_cases (source : Descriptor) (p : Property) :
    (source.shares p = false ∧ source.matching? p = none) ∨
      (source.shares p = true ∧ ∃ q, source.matching? p = some q ∧ source.Matches p q) := by
  rw [shares, matching?]
  cases hp : p.readable && p.writable with
  | false => exact .inl ⟨rfl, rfl⟩
  | true =>
    cases hs : source.property? p.name with
    | none => exact .inl ⟨rfl, rfl⟩
    | some r =>
      cases hr : r.readable with
      | false => exact .inl ⟨hr, by simp [hr]⟩
      | true =>
        have hname : r.name = p.name := by simpa using List.find?_some hs
        exact .inr ⟨hr, ⟨r, p⟩, by simp [hr], ⟨rfl, List.mem_of_find?_eq_some hs, hname, hr⟩⟩

theorem mem_defaultProperties {source target : Descriptor} {q : MatchedProperty}
    (hq : q ∈ defaultProperties source target) : source.Matches q.target q := by
  obtain ⟨p, -, hp⟩ := List.mem_filterMap.1 hq
  obtain ⟨-, h⟩ | ⟨-, r, h, hm⟩ := source.matching?_cases p
  · cases h.symm.trans hp
  · cases h.symm.trans hp
    exact hm.target ▸ hm

theorem defaultProperties_names (source target : Descriptor) :
    (defaultProperties source target).map (·.target.name) = source.sharedNames target := by
  rw [defaultProperties, sharedNames]
  induction target.properties with
  | nil => rfl
  | cons p rest ih =>
    obtain ⟨hs, h⟩ | ⟨hs, q, h, hm⟩ := source.matching?_cases p
    · rw [List.filterMap_cons_none h, List.filter_cons_of_neg (by simp [hs]), ih]
    · rw [List.filterMap_cons_some h, List.filter_cons_of_pos hs, List.map_cons, List.map_cons, ih,
        hm.target]

end Descriptor

/-! ### The projection of properties -/

namespace Mapping

/-- Each shared property has the value of the source, as a function of its name. -/
theorem defaultStage_apply (c : Compilation) (source target : Descriptor) (declared : DeclaredAt)
    (typeName : String) {values : List (String × Value)}
    (hs : ∀ p ∈ source.properties, p.readable = true → p.name ∈ Bindings.names values) :
    ∃ g : String → Value,
      (Mapping.build c source target declared).value.defaultStage.apply (.record typeName values) =
        .ok (.record target.qualified
          ((source.sharedNames target).eraseDups.map fun n => (n, g n))) ∧
      ∀ n ∈ source.sharedNames target, Bindings.get? values n = some (g n) := by
  let g (n : String) : Value := (Bindings.get? values n).getD .none
  have hmatched : ∀ q ∈ defaultProperties source target,
      Bindings.get? values q.target.name = some (g q.target.name) := by
    intro q hq
    have hm := Descriptor.mem_defaultProperties hq
    obtain ⟨v, hv⟩ := Option.isSome_iff_exists.1
      ((Bindings.get?_isSome values q.target.name).2 (hm.name ▸ hs _ hm.source hm.readable))
    simp [g, hv]
  have hbinding : ∀ b ∈ (defaultProperties source target).map fun q =>
        (q.target.name, Tree.member (.param Convention.sourceParameter) q.source.name),
      b.2.eval [(Convention.sourceParameter, .record typeName values)] = .ok (g b.1) := by
    intro b hb
    obtain ⟨q, hq, rfl⟩ := List.mem_map.1 hb
    rw [Tree.eval, Tree.eval, Bindings.get?_cons, if_pos (beq_self_eq_true _)]
    show Value.member (.record typeName values) q.source.name = _
    rw [Value.member, (Descriptor.mem_defaultProperties hq).name, hmatched q hq]
  refine ⟨g, ?_, fun n hn => ?_⟩
  · have hnames : Bindings.names ((defaultProperties source target).map fun q =>
        (q.target.name, Tree.member (.param Convention.sourceParameter) q.source.name)) =
        source.sharedNames target := by
      rw [← Descriptor.defaultProperties_names, Bindings.names, List.map_map]
      rfl
    show Tree.eval [(Convention.sourceParameter, .record typeName values)]
      (.init target.qualified ((defaultProperties source target).map fun q =>
        (q.target.name, Tree.member (.param Convention.sourceParameter) q.source.name))) = _
    rw [Tree.eval, Tree.evalBindings_values g hbinding, hnames, Bindings.setAll_eq_eraseDups]
    rfl
  · rw [← Descriptor.defaultProperties_names] at hn
    obtain ⟨q, hq, rfl⟩ := List.mem_map.1 hn
    exact hmatched q hq

/-- Where no degenerate factory can be lowered, the default projection of a plan turns a
record with a value for each readable property of the source into one of the shared
properties, in the order of the target and with the same values. -/
theorem plan_projects_shared {c : Compilation} {source target : Descriptor} {declared : DeclaredAt}
    (hd : ∀ f ∈ (Mapping.build c source target declared).value.factories, f.isDegenerate = true →
      ((Mapping.build c source target declared).value.degenerateStage c f).notes ≠ [])
    (typeName : String) {values : List (String × Value)}
    (hs : ∀ p ∈ source.properties, p.readable = true → p.name ∈ Bindings.names values) :
    ∃ fields,
      ((Mapping.build c source target declared).value.plan c).value.defaultStage.apply
          (.record typeName values) = .ok (.record target.qualified fields) ∧
      Bindings.names fields = (source.sharedNames target).eraseDups ∧
      ((target.properties.map (·.name)).Nodup →
        Bindings.names fields = source.sharedNames target) ∧
      ∀ b ∈ fields, Bindings.get? values b.1 = some b.2 := by
  have hstage : ((Mapping.build c source target declared).value.plan c).value.defaultStage =
      (Mapping.build c source target declared).value.defaultStage :=
    ((Mapping.build c source target declared).value.plan_defaultStage c).resolve_right
      fun ⟨f, hf, hdegenerate, hplan⟩ => hd f hf hdegenerate (by rw [hplan])
  obtain ⟨g, happly, hg⟩ := defaultStage_apply c source target declared typeName hs
  have hnames : Bindings.names ((source.sharedNames target).eraseDups.map fun n => (n, g n)) =
      (source.sharedNames target).eraseDups := by
    simp [Bindings.names, Function.comp_def]
  refine ⟨_, hstage ▸ happly, hnames, fun hnodup => ?_, fun b hb => ?_⟩
  · rw [hnames]
    exact eraseDups_of_nodup (hnodup.sublist (List.filter_sublist.map _))
  · obtain ⟨n, hn, rfl⟩ := List.mem_map.1 hb
    exact hg n (List.mem_eraseDups.1 hn)

end Mapping

namespace Sample

/-- A target with properties that are not shared, and with a degenerate factory that has no
tree. -/
def account : Descriptor :=
  { target with
    properties := [{ property "Target" "age" (.builtin .int) with writable := false },
      property "Target" "nick" (.builtin .str), property "Target" "name" (.builtin .str)]
    methods := [{ method "u" "b" [] (.call place (name "fresh") []) with
      parameters := [⟨"u", user.toRef, none, place⟩] }] }

end Sample

theorem Mapping.plan_projects_shared_account :
    (Mapping.build Sample.compilation Sample.user Sample.account
      ⟨0, Sample.place⟩).value.factories.map (·.isDegenerate) = [true] ∧
    ∃ fields, ((Mapping.build Sample.compilation Sample.user Sample.account
        ⟨0, Sample.place⟩).value.plan Sample.compilation).value.defaultStage.apply Sample.person =
          .ok (.record "app::Target" fields) ∧
      Bindings.names fields = (Sample.user.sharedNames Sample.account).eraseDups ∧
      ((Sample.account.properties.map (·.name)).Nodup →
        Bindings.names fields = Sample.user.sharedNames Sample.account) ∧
      ∀ b ∈ fields, Bindings.get? [("name", Value.str "n"), ("age", .int 3)] b.1 = some b.2 := by
  refine ⟨rfl, Mapping.plan_projects_shared (fun f hf _ => ?_) "app::User" (by decide)⟩
  cases hf with
  | head => exact nofun
  | tail _ hf => cases hf

/-! ### Degenerate factories -/

/-- What a degenerate factory is without. -/
theorem Factory.Scoped.of_degenerate {f : Factory} (h : f.Scoped) (hd : f.isDegenerate = true) :
    f.parameters = [] ∧ f.vars = [] ∧ f.residuals = [] ∧ f.residualLocals = [] := by
  rw [Factory.isDegenerate] at hd
  simp only [Bool.and_eq_true, List.isEmpty_iff] at hd
  refine ⟨hd.1.1, hd.1.2, hd.2, List.eq_nil_iff_forall_not_mem.2 fun v hv => ?_⟩
  have hlocal := h v.1 (List.mem_map_of_mem hv)
  rw [hd.2] at hlocal
  cases hlocal

namespace Mapping

/-- The source as a projection calls it. -/
def renameSource (f : Factory) (name : String) : Option Tree :=
  if name = f.sourceParam then some (.param Convention.sourceParameter) else none

section
variable {f : Factory} (h : f.Scoped) (hd : f.isDegenerate = true) (m : Mapping) (c : Compilation)
include h hd

theorem lower_of_degenerate : m.lower c f = (fun trees => ⟨[], [], [], trees⟩) <$>
    initializerTrees (m.lowering c f) [f.sourceParam] f.initializers := by
  obtain ⟨hp, hv, hr, hl⟩ := h.of_degenerate hd
  rw [lower, hp, hv, hr, hl]
  rfl

/-- The projection that a degenerate factory makes is of the lowering that its plan is of. -/
theorem degenerateStage_of_lower : m.degenerateStage c f = (fun t =>
    ⟨Convention.sourceParameter, m.construction c
      (t.properties.map fun b => (b.1, b.2.substitute (renameSource f)))
      (.member (.param Convention.sourceParameter))⟩) <$> m.lower c f := by
  rw [m.lower_of_degenerate h hd, Functor.map_map]
  rfl

/-- Its initializers read the source and nothing else. -/
theorem reads_of_degenerate {p : String × Tree} (hp : p ∈ (m.lower c f).value.properties)
    {n : String} (hn : n ∈ p.2.reads) : n = f.sourceParam := by
  obtain ⟨hparameters, hvars, -, hlocals⟩ := h.of_degenerate hd
  have hread := m.properties_reads c f p hp n hn
  rw [visible, hparameters, hvars, hlocals] at hread
  exact List.mem_singleton.1 hread

theorem bind_of_degenerate :
    (m.factoryPlan c f).bind [] = .ok ((m.factoryPlan c f).boundStages []) := by
  have hparameters : (m.factoryPlan c f).parameters = [] := by
    show (m.lower c f).value.parameters = []
    rw [m.lower_of_degenerate h hd]
    rfl
  have hresiduals : (m.factoryPlan c f).residuals = [] := by
    show (m.lower c f).value.residuals = []
    rw [m.lower_of_degenerate h hd]
    rfl
  rw [FactoryPlan.bind, FactoryPlan.boundScope, hparameters, hresiduals]
  rfl

/-- Without variables, what the stages stand for is a target in the scope of the source. -/
theorem unstaged_of_degenerate (s : Value) : m.unstaged c f [] s = m.targetRecord c
    (fun name => (Bindings.get? (m.lower c f).value.properties name).map
      (·.eval [(f.sourceParam, s)])) s.member := by
  have hvars : (m.lower c f).value.vars = [] := by rw [m.lower_of_degenerate h hd]; rfl
  rw [unstaged, hvars]
  show m.targetRecord c _ _ = _
  congr 1
  funext p
  show (do (← (Tree.param f.sourceParam).eval [(f.sourceParam, s)]).member p) = _
  rw [Tree.eval, Bindings.get?_cons, if_pos (beq_self_eq_true _)]
  rfl

theorem degenerateStage_eq_unstaged (s : Value) :
    (m.degenerateStage c f).value.apply s = m.unstaged c f [] s := by
  rw [m.unstaged_of_degenerate h hd, m.degenerateStage_of_lower h hd]
  show (m.construction c _ _).eval [(Convention.sourceParameter, s)] = _
  rw [construction_eval]
  congr 1
  funext name
  rw [Bindings.get?_map (Tree.substitute (renameSource f)), Option.map_map]
  cases ht : Bindings.get? (m.lower c f).value.properties name with
  | none => rfl
  | some t =>
    refine congrArg some (Tree.eval_substitute t fun n hn => ?_)
    rw [m.reads_of_degenerate h hd c (Bindings.mem_of_get? ht) hn, renameSource, if_pos rfl,
      Option.getD_some, Tree.eval, Tree.eval, Bindings.get?_cons, Bindings.get?_cons,
      if_pos (beq_self_eq_true _), if_pos (beq_self_eq_true _)]

end

/-- A degenerate factory is noted for the same parts as a projection and as a plan, and the
plan bound to no arguments is the same function as the projection. -/
theorem degenerateStage_agrees {c : Compilation} {source target : Descriptor}
    {declared : DeclaredAt} {method : Method} {f : Factory}
    (hf : Factory.ofMethod c source target declared method = .ok f)
    (hd : f.isDegenerate = true) (m : Mapping) :
    (m.degenerateStage c f).notes = (m.lower c f).notes ∧
    ∃ stages, (m.factoryPlan c f).bind [] = .ok stages ∧
      ∀ s, applyStages stages s = (m.degenerateStage c f).value.apply s := by
  have h := (Factory.ofMethod_describes hf).scoped
  refine ⟨?_, _, m.bind_of_degenerate h hd c, fun s => ?_⟩
  · rw [m.degenerateStage_of_lower h hd, Noted.map_notes]
  · have hnames : ∀ n ∈ f.boundNames, n ∈ Bindings.names ([] : Scope) := by
      obtain ⟨hp, -, -, hl⟩ := h.of_degenerate hd
      rw [Factory.boundNames, hp, hl]
      exact nofun
    rw [m.applyStages_eq_unstaged c f hnames, m.degenerateStage_eq_unstaged h hd]

end Mapping

namespace Sample

/-- A degenerate method whose source has the name of a stage. -/
def clashingDirect : Method :=
  { method "_params" "b" [] (field "_params" "name") with
    parameters := [⟨"_params", user.toRef, none, place⟩] }

end Sample

theorem Mapping.degenerateStage_agrees_clashing :
    ∃ f, Factory.ofMethod Sample.compilation Sample.user Sample.target ⟨0, Sample.place⟩
        Sample.clashingDirect = .ok f ∧ f.isDegenerate = true ∧
      (Sample.mapping.degenerateStage Sample.compilation f).notes =
        (Sample.mapping.lower Sample.compilation f).notes ∧
      ∃ stages, (Sample.mapping.factoryPlan Sample.compilation f).bind [] = .ok stages ∧
        ∀ s, applyStages stages s =
          (Sample.mapping.degenerateStage Sample.compilation f).value.apply s :=
  ⟨_, rfl, rfl, Mapping.degenerateStage_agrees (rfl : Factory.ofMethod Sample.compilation
    Sample.user Sample.target ⟨0, Sample.place⟩ Sample.clashingDirect = .ok _) rfl Sample.mapping⟩

end StagedMapping
