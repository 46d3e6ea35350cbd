import StagedMapping.Proofs.EmittedTree
import StagedMapping.Proofs.PlanContents
import StagedMapping.Proofs.PlanSteps
import StagedMapping.Proofs.Renumbering
import StagedMapping.Proofs.RequestOrder

/-! Overloads of a factory. The factories of a plan are of methods of its target, and what
tells them apart is a short hash of their declarations, that is of their parameters. No step
of a pass compares declarations, so a class may have several factories of one declaration.
Where the hash is injective on the declarations of a plan, a digest finds the first factory
of its declaration, and the digests and the names of the functions that are emitted for
factories differ exactly if the declarations do (`overloads_apart_iff`). -/
namespace StagedMapping
open Generated

/-! ### Digests -/

namespace Digest

theorem wordDigits_length (w : UInt32) : (wordDigits w).length = 8 := by simp [wordDigits]

theorem short_length (declaration : String) : (short declaration).length = shortLength := by
  have hdigits : ((sha256 declaration.toUTF8.toList).flatMap wordDigits).length = 64 := by
    simp only [List.length_flatMap, wordDigits_length]
    rfl
  rw [short, String.length_ofList, List.length_take, hdigits]
  rfl

end Digest

namespace MapPlan
variable {m : MapPlan}

def declarations (m : MapPlan) : List String := m.factories.map (·.declaration)

def digests (m : MapPlan) : List String := m.factories.map (·.digest)

/-- The short hash is injective on the declarations of a plan. -/
def Hashed (m : MapPlan) : Prop :=
  ∀ d ∈ m.declarations, ∀ e ∈ m.declarations, Digest.short d = Digest.short e → d = e

/-- The digests of factories are the short hashes of their declarations. -/
def Digested (m : MapPlan) : Prop := ∀ p ∈ m.factories, p.digest = Digest.short p.declaration

namespace Digested
variable (hd : m.Digested)
include hd

theorem digests_eq : m.digests = m.declarations.map Digest.short := by
  rw [digests, declarations, List.map_map]
  exact List.map_congr_left hd

theorem digests_length : ∀ d ∈ m.digests, d.length = Digest.shortLength := by
  rw [hd.digests_eq]
  intro d hm
  obtain ⟨declaration, -, rfl⟩ := List.mem_map.1 hm
  exact Digest.short_length declaration

variable (hh : m.Hashed)
include hh

theorem digest_eq_iff {p q : FactoryPlan} (hp : p ∈ m.factories) (hq : q ∈ m.factories) :
    p.digest = q.digest ↔ p.declaration = q.declaration := by
  rw [hd p hp, hd q hq]
  exact ⟨hh _ (List.mem_map_of_mem hp) _ (List.mem_map_of_mem hq), congrArg Digest.short⟩

theorem nodup_iff : m.digests.Nodup ↔ m.declarations.Nodup := by
  rw [hd.digests_eq]
  exact ⟨List.Nodup.of_map _, fun h => h.map_on hh⟩

/-- A digest finds the first factory of its declaration. -/
theorem factory_first {p : FactoryPlan} (hp : p ∈ m.factories) :
    ∃ before first after, m.factories = before ++ first :: after ∧
      m.factory p.digest = .ok first ∧ first.declaration = p.declaration ∧
      ∀ q ∈ before, q.declaration ≠ p.declaration := by
  have hsome : (m.factories.find? (·.digest == p.digest)).isSome = true :=
    List.find?_isSome.2 ⟨p, hp, beq_self_eq_true _⟩
  obtain ⟨first, hfound⟩ := Option.isSome_iff_exists.1 hsome
  obtain ⟨hsame, before, after, hfactories, hbefore⟩ := List.find?_eq_some_iff_append.1 hfound
  have hmem : ∀ q ∈ before ++ first :: after, q ∈ m.factories := fun q hq => hfactories ▸ hq
  refine ⟨before, first, after, hfactories, by rw [factory, hfound], ?_, fun q hq he => ?_⟩
  · exact (hd.digest_eq_iff hh (hmem first (by simp)) hp).1 (by simpa using hsame)
  · have hdiffers := hbefore q hq
    rw [(hd.digest_eq_iff hh (hmem q (by simp [hq])) hp).2 he] at hdiffers
    simp at hdiffers

theorem factory_self (hn : m.declarations.Nodup) {p : FactoryPlan} (hp : p ∈ m.factories) :
    m.factory p.digest = .ok p := by
  obtain ⟨before, first, after, hfactories, hfound, hsame, -⟩ := hd.factory_first hh hp
  have hfirst : first ∈ m.factories := by rw [hfactories]; simp
  rw [hfound, List.inj_on_of_nodup_map hn hfirst hp hsame]

end Digested
end MapPlan

/-! ### Factories of a plan -/

namespace Mapping
variable (m : Mapping) (c : Compilation)

theorem plan_digested : (m.plan c).value.Digested := by
  intro p hp
  obtain ⟨f, -, -, -, rfl⟩ := m.mem_plan c hp
  rfl

/-- A factory adds its own plan or none. -/
theorem planStep_declarations (merged : Option Lambda) (f : Factory) :
    ((m.planStep c merged f).value.2.map (·.declaration)).Sublist [f.declaration] := by
  unfold planStep
  split
  · cases merged <;> exact List.nil_sublist _
  · rw [Noted.map_value]
    cases (m.lower c f).unnoted.value with
    | none => exact List.nil_sublist _
    | some t => exact List.Sublist.refl _

theorem planFactories_declarations (merged : Option Lambda) (fs : List Factory) :
    ((m.planFactories c merged fs).value.2.map (·.declaration)).Sublist
      (fs.map (·.declaration)) := by
  induction fs generalizing merged with
  | nil => exact List.Sublist.refl _
  | cons f rest ih =>
    rw [planFactories_cons]
    show (((m.planStep c merged f).value.2 ++ _).map _).Sublist ([f.declaration] ++ _)
    rw [List.map_append]
    exact (m.planStep_declarations c merged f).append (ih _)

/-- The factories of a mapping are of methods of its target, in order. -/
theorem build_declarations (source target : Descriptor) (declared : DeclaredAt) :
    ((Mapping.build c source target declared).value.factories.map (·.declaration)).Sublist
      (target.methods.map (·.declaration)) := by
  have haccepted (methods : List Method) :
      (((methods.map (Factory.ofMethod c source target declared)).filterMap (·.toOption)).map
        (·.declaration)).Sublist (methods.map (·.declaration)) := by
    induction methods with
    | nil => exact List.Sublist.refl _
    | cons method rest ih =>
      rw [List.map_cons, List.map_cons]
      cases h : Factory.ofMethod c source target declared method with
      | error faults => exact ih.trans (List.sublist_cons_self _ _)
      | ok f =>
        have hdeclaration : f.declaration = method.declaration :=
          congrArg Method.declaration (Factory.ofMethod_describes h).method
        show (f.declaration :: _).Sublist _
        rw [hdeclaration]
        exact ih.cons_cons _
  exact (haccepted _).trans (List.filter_sublist.map _)

theorem plan_declarations (source target : Descriptor) (declared : DeclaredAt) :
    ((Mapping.build c source target declared).value.plan c).value.declarations.Sublist
      (target.methods.map (·.declaration)) :=
  (planFactories_declarations _ c none _).trans (build_declarations c source target declared)

end Mapping

/-- The target of a request is known under its name. -/
theorem Compilation.discover_target {files : List SourceFile} {compiled : List CompiledType}
    {r : MapRequest} (hr : r ∈ (ofSources files compiled).discover.value) :
    (ofSources files compiled).descriptor? r.target.toRef = some r.target := by
  obtain ⟨name, hname⟩ := (discover_requested _ r hr).target
  have hqualified : r.target.toRef.qualified = name := descriptorNamed?_qualified hname
  rw [descriptor?, hqualified, hname]

/-! ### Functions of factories -/

/-- Of texts that end with parts of one length, these parts and the rest are determined. -/
theorem append_inj_of_length {a b d e : String} (hl : d.length = e.length) (h : a ++ d = b ++ e) :
    a = b ∧ d = e := by
  have hlists : a.toList ++ d.toList = b.toList ++ e.toList := by
    rw [← String.toList_append, ← String.toList_append, h]
  obtain ⟨ha, hd⟩ := List.append_inj' hlists (by rw [String.length_toList, String.length_toList, hl])
  exact ⟨String.toList_inj.1 ha, String.toList_inj.1 hd⟩

namespace Generated

/-- The code of an item ends with functions in braces. -/
def Item.Declares (item : Item) (functions : List Function) : Prop :=
  ∃ before, item.code = before ++ braces (functions.flatMap (·.code))

/-- What stands before the digest in the names of the functions of a factory. -/
def surfaceStarts (target : TypeRef) : List String :=
  let base := "to_" ++ Name.toSnake target.name
  ["args_", "map_", base ++ "_", base ++ "_query_", base ++ "_iter_"]

/-- The names of the functions of the factory with a digest. -/
def surfaceNames (target : TypeRef) (digest : String) : List String :=
  (surfaceStarts target).map (· ++ digest)

theorem surfaceStarts_nodup (target : TypeRef) : (surfaceStarts target).Nodup := by
  have hargs (s : String) : "args_" ≠ "to_" ++ s := fun h => by
    simpa using congrArg String.toList h
  have hmap (s : String) : "map_" ≠ "to_" ++ s := fun h => by
    simpa using congrArg String.toList h
  simp [surfaceStarts, String.append_assoc, hargs, hmap]

theorem surfaceNames_disjoint {target : TypeRef} {d e : String} (hl : d.length = e.length) :
    (surfaceNames target d).Disjoint (surfaceNames target e) ↔ d ≠ e := by
  constructor
  · rintro h rfl
    exact h List.mem_cons_self List.mem_cons_self
  · intro hne name hd he
    obtain ⟨a, -, rfl⟩ := List.mem_map.1 hd
    obtain ⟨b, -, h⟩ := List.mem_map.1 he
    exact hne (append_inj_of_length hl h.symm).2

theorem surfaceNames_nodup (target : TypeRef) {digests : List String} {n : Nat}
    (hl : ∀ d ∈ digests, d.length = n) :
    (digests.flatMap (surfaceNames target)).Nodup ↔ digests.Nodup := by
  have hone (d : String) : (surfaceNames target d).Nodup :=
    (surfaceStarts_nodup target).map fun a b h => (append_inj_of_length rfl h).1
  have hdisjoint {d e : String} (hd : d ∈ digests) (he : e ∈ digests) :
      (surfaceNames target d).Disjoint (surfaceNames target e) ↔ d ≠ e :=
    surfaceNames_disjoint ((hl d hd).trans (hl e he).symm)
  rw [List.nodup_flatMap]
  constructor
  · exact fun h => h.2.imp_of_mem fun hd he => (hdisjoint hd he).1
  · exact fun h => ⟨fun d _ => hone d, h.imp_of_mem fun hd he => (hdisjoint hd he).2⟩

/-- A container declares the functions of its factories after those that every one has. -/
theorem mapperItem_surfaces {s : Surroundings} {u : MapUnit} {shared : Bool} {item : Generated.Item}
    (h : mapperItem s u shared = .ok item) :
    ∃ common own, item.Declares (common ++ own) ∧
      own.map (·.name) = ((emittedFactories u).map (·.1.digest)).flatMap (surfaceNames u.target) := by
  obtain ⟨source, target, plan, base, factories, -, -, hfactories, -, -, hcode⟩ :=
    mapperItem_eq_ok h
  refine ⟨_, factories.flatten, hcode, ?_⟩
  have hnames : factories.map (·.map (·.name)) =
      (emittedFactories u).map fun f => surfaceNames u.target f.1.digest :=
    map_eq_of_mapM_eq_ok hfactories fun f _ functions hmade => by
      obtain ⟨params, -, hmade⟩ := bind_eq_ok.1 hmade
      cases hmade
      rfl
  rw [List.map_flatten, hnames, List.flatMap_map, List.flatMap_def]

end Generated

/-- The factories that are emitted are those of the plan. -/
theorem emittedFactories_plans (c : Compilation) (source target : Descriptor)
    (declared : DeclaredAt) : let u := (c.unit source target declared).value
    (emittedFactories u).map (·.1) = u.plan.factories := by
  intro u
  have hfound : ∀ p ∈ u.plan.factories,
      (u.mapping.factories.find? (·.digest == p.digest)).isSome = true := by
    intro p hp
    obtain ⟨f, hf, -, -, rfl⟩ := u.mapping.mem_plan c hp
    exact List.find?_isSome.2 ⟨f, hf, beq_self_eq_true _⟩
  rw [emittedFactories, List.map_filterMap]
  refine (List.filterMap_congr fun p hp => ?_).trans List.filterMap_some
  obtain ⟨f, hf⟩ := Option.isSome_iff_exists.1 (hfound p hp)
  rw [hf]
  rfl

/-- The container of a mapping without type arguments. -/
theorem Emits.container {inputs : List Input} {compiled : List CompiledType} {options : EmitOptions}
    {s : Surroundings} {units : List MapUnit} {tree : ModuleTree} {text : String}
    (h : Emits inputs compiled options s units tree text) {u : MapUnit} (hu : u ∈ units)
    (he : Emission.isEmitted u = true) : ∃ m ∈ tree.modules, ∃ item ∈ m.items,
      mapperItem s u (Emission.isShared units u) = .ok item := by
  have hpath : Name.segments u.target.ns ∈ Emission.itemPaths s.compilation units :=
    List.mem_append_right _ (List.mem_map_of_mem
      (List.mem_filter.2 ⟨List.mem_mergeSort.2 hu, he⟩))
  obtain ⟨m, hm, hmodule⟩ := h.modules.2 _ hpath
  obtain ⟨structs, containers, hitems, -, hcontainers⟩ := hmodule.items
  obtain ⟨item, hitem, hmade⟩ :=
    exists_mem_of_mapM_eq_ok hcontainers (Emission.mem_mappersAt.2 ⟨hu, he, rfl⟩)
  exact ⟨m, hm, item, by rw [hitems]; exact List.mem_append_right _ hitem, hmade⟩

/-- The functions of factories that a pass with code emits for a mapping. -/
theorem exists_surfaces {inputs : List Input} {compiled : List CompiledType}
    {options : EmitOptions} {result : PassResult} (h : compile inputs compiled options = .ok result)
    {u : MapUnit} (hu : u ∈ result.units) (he : Emission.isEmitted u = true) {text : String}
    (hcode : result.code = some text) :
    ∃ s tree, Emits inputs compiled options s result.units tree text ∧
      ∃ m ∈ tree.modules, ∃ item ∈ m.items, ∃ common own, item.Declares (common ++ own) ∧
        own.map (·.name) = u.plan.digests.flatMap (surfaceNames u.target) := by
  obtain ⟨s, tree, hemits⟩ := emits_of_compile h hcode
  obtain ⟨m, hm, item, hitem, hmade⟩ := hemits.container hu he
  obtain ⟨common, own, hdeclares, hnames⟩ := mapperItem_surfaces hmade
  refine ⟨s, tree, hemits, m, hm, item, hitem, common, own, hdeclares, hnames.trans ?_⟩
  obtain ⟨files, -, r, -, rfl⟩ := unit_of_compile h hu
  have hdigests := congrArg (List.map FactoryPlan.digest)
    (emittedFactories_plans (Compilation.ofSources files compiled) r.source r.target r.declared)
  rw [List.map_map] at hdigests
  exact congrArg _ hdigests

/-! ### Plans of a pass -/

/-- Where the short hash is injective on the declarations of a plan, which are declarations of
methods of the target in order, a digest finds the first factory of its declaration. So digests
and the names of emitted functions are distinct, and every factory is found by its digest, if
no two factories have one declaration. -/
theorem overloads_apart_iff {inputs : List Input} {compiled : List CompiledType}
    {options : EmitOptions} {result : PassResult} (h : compile inputs compiled options = .ok result)
    {u : MapUnit} (hu : u ∈ result.units) (hh : u.plan.Hashed) :
    (∃ files d, readSources inputs = .ok files ∧
      (Compilation.ofSources files compiled).descriptor? u.target = some d ∧
      u.plan.declarations.Sublist (d.methods.map (·.declaration))) ∧
    (u.plan.digests.Nodup ↔ u.plan.declarations.Nodup) ∧
    (∀ p ∈ u.plan.factories, ∃ before first after, u.plan.factories = before ++ first :: after ∧
      u.plan.factory p.digest = .ok first ∧ first.declaration = p.declaration ∧
      ∀ q ∈ before, q.declaration ≠ p.declaration) ∧
    (u.plan.declarations.Nodup → ∀ p ∈ u.plan.factories, u.plan.factory p.digest = .ok p) ∧
    ∀ text, result.code = some text → Emission.isEmitted u = true →
      ∃ s tree, Emits inputs compiled options s result.units tree text ∧
        ∃ m ∈ tree.modules, ∃ item ∈ m.items, ∃ common own, item.Declares (common ++ own) ∧
          own.map (·.name) = u.plan.digests.flatMap (surfaceNames u.target) ∧
          ((own.map (·.name)).Nodup ↔ u.plan.declarations.Nodup) := by
  obtain ⟨files, hread, r, hr, rfl⟩ := unit_of_compile h hu
  have hd : ((Compilation.ofSources files compiled).unit r.source r.target
      r.declared).value.plan.Digested := Mapping.plan_digested _ _
  refine ⟨⟨files, r.target, hread, Compilation.discover_target hr, Mapping.plan_declarations ..⟩,
    hd.nodup_iff hh, fun p hp => hd.factory_first hh hp, fun hn p hp => hd.factory_self hh hn hp,
    fun text hcode he => ?_⟩
  obtain ⟨s, tree, hemits, m, hm, item, hitem, common, own, hdeclares, hnames⟩ :=
    exists_surfaces h hu he hcode
  refine ⟨s, tree, hemits, m, hm, item, hitem, common, own, hdeclares, hnames, ?_⟩
  rw [hnames, surfaceNames_nodup _ hd.digests_length, hd.nodup_iff hh]

/-! ### A class with overloads -/

namespace Sample
open Source (Param Statement)

def overloadsText : String :=
  "namespace m\n@map_from(a::U)\nclass T:\n n: int\n def map(u: a::U, k: int):\n  let l: Gone\n  return new T()\n def map(u: a::U, k: int):\n  return new T(n = k)\n"

/-- Two factories of one declaration, the first with a local of a type that there is not. -/
def overloads : List Input := [⟨"overloads", overloadsText⟩]

/-- The parameters of the factory that starts at a place. -/
def overloadParams (start : Nat) : List Param :=
  [⟨⟨start + 8, start + 15⟩, "u", .named ⟨start + 11, start + 15⟩ ["a", "U"], none⟩,
    ⟨⟨start + 17, start + 23⟩, "k", .named ⟨start + 20, start + 23⟩ ["int"], none⟩]

def goneBody : List Statement :=
  [.letIn ⟨74, 85⟩ [⟨⟨"l", ⟨78, 79⟩⟩, some (.named ⟨81, 85⟩ ["Gone"]), none⟩],
    .ret ⟨88, 102⟩ (some (.construct ⟨95, 102⟩ (.named ⟨99, 100⟩ ["T"]) []))]

def namedBody : List Statement :=
  [.ret ⟨132, 151⟩ (some (.construct ⟨139, 151⟩ (.named ⟨143, 144⟩ ["T"])
    [.named ⟨"n", ⟨145, 146⟩⟩ (.ident ⟨149, 150⟩ "k")]))]

def overloadsClass : Source.Class :=
  ⟨⟨12, 152⟩, [twinDecorator 12 "a"], "T", [],
    [⟨⟨38, 44⟩, .readWrite, "n", .named ⟨41, 44⟩ ["int"]⟩],
    [⟨⟨46, 104⟩, "map", overloadParams 46, none, some goneBody⟩,
      ⟨⟨104, 152⟩, "map", overloadParams 104, none, some namedBody⟩]⟩

def overloadsFile : SourceFile :=
  ⟨"overloads", overloadsText, ⟨[.space ⟨0, 11⟩ ["m"], .cls overloadsClass]⟩⟩

def overloadParameters (start : Nat) : List Parameter :=
  [⟨"u", .mk "a" "U" [], none, ⟨start + 8, start + 15⟩⟩,
    ⟨"k", .builtin .int, none, ⟨start + 17, start + 23⟩⟩]

def overloadsTarget : Descriptor :=
  ⟨⟨"m", "T"⟩, [], [⟨⟨"m", "T"⟩, "n", .builtin .int, true, true, ⟨38, 44⟩⟩],
    [⟨⟨"m", "T"⟩, "map", none, overloadParameters 46, some goneBody, ⟨46, 104⟩⟩,
      ⟨⟨"m", "T"⟩, "map", none, overloadParameters 104, some namedBody, ⟨104, 152⟩⟩],
    some ⟨0, ⟨12, 152⟩⟩⟩

def overloadsPass : Compilation where
  files := [overloadsFile]
  origins := [("m::T", .declared 0 "m" overloadsClass), ("a::U", .compiled (twinType "a"))]
  types := [("a::U", .ofCompiled (twinType "a")), ("m::T", overloadsTarget)]
  problems := []

/-- The mapping to the class, and its plan. -/
def overloadsUnit : MapUnit :=
  (overloadsPass.unit (.ofCompiled (twinType "a")) overloadsTarget ⟨0, ⟨12, 152⟩⟩).value

set_option maxRecDepth 2000 in
theorem overloads_read : readSources overloads = .ok [overloadsFile] :=
  readSources_single rfl (by rw [Source.Module.parse, lex, String.toList_ofList]; cbv)

theorem overloads_pass : Compilation.ofSources [overloadsFile] [twinType "a"] = overloadsPass := by
  cbv

theorem overloads_types : Emission.declaredTypes overloadsPass = [overloadsTarget] := by cbv

theorem overloads_placed : ∃ placed,
    Emission.placedItems ⟨overloadsPass, crate⟩ [overloadsUnit] = .ok placed ∧
      ModuleTree.Spellable placed ∧
      Emission.rootFits crate (placed.flatMap (·.item.references)) = true := by
  refine Emission.exists_placed ?_
  unfold Emission.placedItems
  rw [overloads_types, List.mergeSort_singleton]
  decide +kernel

theorem overloads_compile : ∃ result text,
    compile overloads [twinType "a"] .default = .ok result ∧ result.code = some text ∧
      result.units = [overloadsUnit] := by
  obtain ⟨placed, hplaced, hspellable, hfits⟩ := overloads_placed
  exact exists_compile overloads_read overloads_pass rfl rfl crate_read hplaced hspellable
    (.inr (by decide +kernel)) hfits

theorem overloads_hashed : overloadsUnit.plan.Hashed := by
  unfold MapPlan.Hashed
  decide +kernel

end Sample

theorem overloads_apart_iff_sample : ∃ result text,
    compile Sample.overloads [Sample.twinType "a"] .default = .ok result ∧
      result.code = some text ∧ Sample.overloadsUnit ∈ result.units ∧
      Sample.overloadsUnit.plan.Hashed ∧
      (Sample.overloadsUnit.plan.digests.Nodup ↔ Sample.overloadsUnit.plan.declarations.Nodup) ∧
      ∀ p ∈ Sample.overloadsUnit.plan.factories, ∃ before first after,
        Sample.overloadsUnit.plan.factories = before ++ first :: after ∧
          Sample.overloadsUnit.plan.factory p.digest = .ok first ∧
          first.declaration = p.declaration ∧ ∀ q ∈ before, q.declaration ≠ p.declaration := by
  obtain ⟨result, text, h, hcode, hunits⟩ := Sample.overloads_compile
  have hu : Sample.overloadsUnit ∈ result.units := by rw [hunits]; exact List.mem_cons_self
  obtain ⟨-, hnodup, hfirst, -⟩ := overloads_apart_iff h hu Sample.overloads_hashed
  exact ⟨result, text, h, hcode, hu, Sample.overloads_hashed, hnodup, hfirst⟩

/-- Factories of one declaration have one digest, which finds the first of them, and functions
of one name. -/
theorem overloads_collide : ∃ result text,
    compile Sample.overloads [Sample.twinType "a"] .default = .ok result ∧
      result.code = some text ∧ ∃ u ∈ result.units, u.plan.Hashed ∧
        ¬ u.plan.digests.Nodup ∧
        ¬ (∀ p ∈ u.plan.factories, u.plan.factory p.digest = .ok p) ∧
        ∃ s tree, Emits Sample.overloads [Sample.twinType "a"] .default s result.units tree text ∧
          ∃ m ∈ tree.modules, ∃ item ∈ m.items, ∃ common own, item.Declares (common ++ own) ∧
            ¬ (own.map (·.name)).Nodup := by
  obtain ⟨result, text, h, hcode, hunits⟩ := Sample.overloads_compile
  have hu : Sample.overloadsUnit ∈ result.units := by rw [hunits]; exact List.mem_cons_self
  have hdigests : ¬ Sample.overloadsUnit.plan.digests.Nodup := by decide +kernel
  refine ⟨result, text, h, hcode, _, hu, Sample.overloads_hashed, hdigests, fun hself => ?_, ?_⟩
  · -- the last stages of what is found and of the factories themselves
    have hfound : Sample.overloadsUnit.plan.factories.map (fun p =>
        (Sample.overloadsUnit.plan.factory p.digest).toOption.map (·.finalStage.text)) ≠
        Sample.overloadsUnit.plan.factories.map fun p => some p.finalStage.text := by
      decide +kernel
    exact hfound (List.map_congr_left fun p hp => by rw [hself p hp]; rfl)
  · obtain ⟨s, tree, hemits, m, hm, item, hitem, common, own, hdeclares, hnames⟩ :=
      exists_surfaces h hu rfl hcode
    refine ⟨s, tree, hemits, m, hm, item, hitem, common, own, hdeclares, ?_⟩
    have hd : Sample.overloadsUnit.plan.Digested := Mapping.plan_digested _ _
    rw [hnames, surfaceNames_nodup _ hd.digests_length]
    exact hdigests

end StagedMapping
