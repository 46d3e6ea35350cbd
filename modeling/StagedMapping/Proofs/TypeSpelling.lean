import StagedMapping.Proofs.KnownNames

/-! How generated modules spell types. `TypeRef.spelled` lists the types that the code of a type
spells by paths, and `Emission.spelledAt` those that a module does. A type is spelled by its
short name alone (`Surroundings.isBare`) unless it lives in the root namespace of another place.
So two types have one path in a module exactly if they have one short name and both are spelled
by it alone (`path?_eq_iff`): the namespaces of other modules are imported as a whole, next to
each other and to the classes of the module itself. -/
namespace StagedMapping
open Generated

/-! ### Spelled types -/

namespace TypeRef

mutual

/-- The types that are spelled by paths in the code of a type, with type parameters in scope. -/
def spelled (generics : List String) : TypeRef → List TypeRef
  | .mk ns name args =>
    match (TypeRef.mk ns name []).builtin? with
    | some .list | some .option => firstSpelled generics args
    | some _ => []
    | none =>
      if ns = "" ∧ generics.contains name then []
      else .mk ns name args :: argsSpelled generics args

def argsSpelled (generics : List String) : List TypeRef → List TypeRef
  | [] => []
  | t :: rest => spelled generics t ++ argsSpelled generics rest

def firstSpelled (generics : List String) : List TypeRef → List TypeRef
  | [] => []
  | t :: _ => spelled generics t

end

mutual

theorem Named.spelled {generics : List String} :
    {t : TypeRef} → t.Named → ∀ r ∈ t.spelled generics, r.Named
  | .mk ns name args, h => by
    cases h with
    | mk hns hname hargs =>
      rw [TypeRef.spelled]
      split
      · exact named_firstSpelled hargs
      · exact named_firstSpelled hargs
      · exact List.forall_mem_nil _
      · split
        · exact List.forall_mem_nil _
        · exact List.forall_mem_cons.2 ⟨.mk hns hname hargs, named_argsSpelled hargs⟩

theorem named_argsSpelled {generics : List String} :
    {ts : List TypeRef} → (∀ t ∈ ts, t.Named) → ∀ r ∈ argsSpelled generics ts, r.Named
  | [], _ => by
    rw [argsSpelled]
    exact List.forall_mem_nil _
  | t :: rest, h => by
    obtain ⟨ht, hrest⟩ := List.forall_mem_cons.1 h
    rw [argsSpelled]
    exact List.forall_mem_append.2 ⟨Named.spelled ht, named_argsSpelled hrest⟩

theorem named_firstSpelled {generics : List String} :
    {ts : List TypeRef} → (∀ t ∈ ts, t.Named) → ∀ r ∈ firstSpelled generics ts, r.Named
  | [], _ => by
    rw [firstSpelled]
    exact List.forall_mem_nil _
  | t :: rest, h => by
    rw [firstSpelled]
    exact Named.spelled (h t List.mem_cons_self)

end

/-- A type without arguments spells at most itself. -/
theorem eq_of_spelled {generics : List String} {t r : TypeRef} (ht : t.args = [])
    (hr : r ∈ t.spelled generics) : r = t := by
  obtain ⟨ns, name, args⟩ := t
  cases show args = [] from ht
  rw [spelled] at hr
  split at hr
  · cases hr
  · cases hr
  · cases hr
  · split at hr
    · cases hr
    · exact List.mem_singleton.1 hr

end TypeRef

namespace Generated.Surroundings
variable (s : Surroundings)

/-- The path that spells a type in a module at some depth. -/
def path? (depth : Nat) (t : TypeRef) : Option Code := (identifier? t.name).map (s.named depth t)

/-- The type is spelled by its short name alone. -/
def isBare (depth : Nat) (t : TypeRef) : Bool :=
  t.ns ≠ "" || (s.home t == .generated && depth == 0)

variable {s}

theorem named_of_isBare {depth : Nat} {t : TypeRef} (h : s.isBare depth t = true) (word : String) :
    s.named depth t word = [.symbol word] := by
  unfold isBare at h
  unfold named
  cases hhome : s.home t with
  | compiled =>
    have hns : t.ns ≠ "" := by simpa [hhome] using h
    exact if_neg hns
  | generated =>
    refine if_neg fun hdeep => ?_
    simp [hhome, hdeep.1, Nat.ne_of_gt hdeep.2] at h

theorem joined_concat {w : String} {words : List String} (hne : words ≠ []) :
    joined (words ++ [w]) = joined words ++ [.symbol "::", .symbol w] := by
  cases words with
  | nil => exact absurd rfl hne
  | cons first rest => simp [joined, absolute]

theorem named_of_not_isBare {depth : Nat} {t : TypeRef} (h : s.isBare depth t = false)
    (word : String) :
    t.ns = "" ∧ ∃ front, s.named depth t word = front ++ [.symbol "::", .symbol word] := by
  unfold isBare at h
  rw [Bool.or_eq_false_iff, decide_eq_false_iff_not, not_not] at h
  obtain ⟨hns, hplace⟩ := h
  refine ⟨hns, ?_⟩
  unfold named
  cases hhome : s.home t with
  | compiled => exact ⟨s.root.code, if_pos hns⟩
  | generated =>
    have hdeep : depth ≠ 0 := by simpa [hhome] using hplace
    have hup : wordsUp depth ≠ [] := by
      unfold wordsUp
      rw [if_neg hdeep]
      simp [hdeep]
    exact ⟨joined (wordsUp depth),
      (if_pos ⟨hns, Nat.pos_of_ne_zero hdeep⟩).trans (joined_concat hup)⟩

/-- Different types have one path just if they have one short name and are spelled by it alone. -/
theorem path?_eq_iff {depth : Nat} {a b : TypeRef} (ha : (identifier? a.name).isSome = true)
    (hb : (identifier? b.name).isSome = true) (hna : Name.IsPath a.name) (hnb : Name.IsPath b.name)
    (hne : a.key ≠ b.key) : s.path? depth a = s.path? depth b ↔
      a.name = b.name ∧ s.isBare depth a = true ∧ s.isBare depth b = true := by
  obtain ⟨v, hv⟩ := Option.isSome_iff_exists.1 ha
  obtain ⟨w, hw⟩ := Option.isSome_iff_exists.1 hb
  have hname (he : v = w) : a.name = b.name := identifier?_inj hna hnb hv (he ▸ hw)
  rw [path?, path?, hv, hw, Option.map_some, Option.map_some, Option.some_inj]
  cases hbare : s.isBare depth a <;> cases hbare' : s.isBare depth b
  · obtain ⟨hns, front, hpath⟩ := named_of_not_isBare hbare v
    obtain ⟨hns', front', hpath'⟩ := named_of_not_isBare hbare' w
    refine iff_of_false (fun he => hne ?_) (by simp)
    rw [hpath, hpath'] at he
    obtain ⟨-, hlast⟩ := List.append_inj' he rfl
    have hword : v = w := by simpa using hlast
    show TypeKey.mk a.ns a.name = TypeKey.mk b.ns b.name
    rw [hns, hns', hname hword]
  · obtain ⟨-, front, hpath⟩ := named_of_not_isBare hbare v
    refine iff_of_false (fun he => ?_) (by simp)
    rw [hpath, named_of_isBare hbare'] at he
    simpa using congrArg List.length he
  · obtain ⟨-, front, hpath⟩ := named_of_not_isBare hbare' w
    refine iff_of_false (fun he => ?_) (by simp)
    rw [hpath, named_of_isBare hbare] at he
    simpa using congrArg List.length he
  · rw [named_of_isBare hbare, named_of_isBare hbare']
    constructor
    · intro he
      have hword : v = w := by simpa using he
      exact ⟨hname hword, rfl, rfl⟩
    · rintro ⟨he, -, -⟩
      rw [he] at hv
      rw [Option.some.inj (hv.symm.trans hw)]

theorem infix_commas {part : Code} {parts : List Code} (h : part ∈ parts) :
    part <:+: commas parts := by
  induction parts with
  | nil => cases h
  | cons first rest ih =>
    cases rest with
    | nil => exact List.mem_singleton.1 h ▸ List.infix_rfl
    | cons second more =>
      rw [commas]
      rcases List.mem_cons.1 h with rfl | h
      · exact (List.prefix_append ..).isInfix
      · exact (ih h).trans ((List.suffix_cons ..).trans (List.suffix_append ..)).isInfix
      · simp

theorem infix_angles {part : Code} {parts : List Code} (h : part ∈ parts) :
    part <:+: angles parts := by
  obtain ⟨before, after, he⟩ := infix_commas h
  exact ⟨.symbol "<" :: before, after ++ [.symbol ">"], by simp [angles, ← he]⟩

mutual

/-- The code of a type holds the path of every type that it spells. -/
theorem typeCode_spells {depth : Nat} {generics : List String} :
    {t : TypeRef} → {code : Code} → s.typeCode depth generics t = .ok code →
      ∀ r ∈ t.spelled generics, ∃ path, s.path? depth r = some path ∧ path <:+: code
  | .mk ns name args, code, h => by
    rw [typeCode] at h
    rw [TypeRef.spelled]
    cases hbuiltin : (TypeRef.mk ns name []).builtin? with
    | some b =>
      simp only [hbuiltin] at h ⊢
      cases b with
      | list | option =>
        obtain ⟨inner, hinner, h⟩ := bind_eq_ok.1 h
        cases h
        intro r hr
        obtain ⟨path, hpath, hcode⟩ := firstCode_spells hinner r hr
        exact ⟨path, hpath, hcode.trans ((infix_angles List.mem_cons_self).trans
          (List.suffix_cons ..).isInfix)⟩
      | _ => exact List.forall_mem_nil _
    | none =>
      simp only [hbuiltin] at h ⊢
      obtain ⟨word, hword, h⟩ := bind_eq_ok.1 h
      have hpath : s.path? depth (.mk ns name args) = some (s.named depth (.mk ns name []) word) := by
        rw [path?, show (TypeRef.mk ns name args).name = name from rfl,
          ModuleTree.identifier_eq_ok.1 hword]
        rfl
      by_cases hparam : ns = "" ∧ generics.contains name = true
      · rw [if_pos hparam]
        exact List.forall_mem_nil _
      · rw [if_neg hparam] at h ⊢
        split at h
        · next hargs =>
          cases h
          rw [List.isEmpty_iff.1 hargs, TypeRef.argsSpelled]
          exact List.forall_mem_singleton.2 ⟨_, List.isEmpty_iff.1 hargs ▸ hpath, List.infix_rfl⟩
        · obtain ⟨codes, hcodes, h⟩ := bind_eq_ok.1 h
          cases h
          refine List.forall_mem_cons.2 ⟨⟨_, hpath, (List.prefix_append ..).isInfix⟩, fun r hr => ?_⟩
          obtain ⟨path, hr, code, hcode, hinfix⟩ := argCodes_spell hcodes r hr
          exact ⟨path, hr, hinfix.trans ((infix_angles hcode).trans (List.suffix_append ..).isInfix)⟩

theorem argCodes_spell {depth : Nat} {generics : List String} :
    {ts : List TypeRef} → {codes : List Code} → s.argCodes depth generics ts = .ok codes →
      ∀ r ∈ TypeRef.argsSpelled generics ts, ∃ path, s.path? depth r = some path ∧
        ∃ code ∈ codes, path <:+: code
  | [], codes, h => by
    rw [TypeRef.argsSpelled]
    exact List.forall_mem_nil _
  | t :: rest, codes, h => by
    rw [argCodes] at h
    obtain ⟨first, hfirst, h⟩ := bind_eq_ok.1 h
    obtain ⟨more, hmore, h⟩ := bind_eq_ok.1 h
    cases h
    rw [TypeRef.argsSpelled]
    refine List.forall_mem_append.2 ⟨fun r hr => ?_, fun r hr => ?_⟩
    · obtain ⟨path, hpath, hinfix⟩ := typeCode_spells hfirst r hr
      exact ⟨path, hpath, first, List.mem_cons_self, hinfix⟩
    · obtain ⟨path, hpath, code, hcode, hinfix⟩ := argCodes_spell hmore r hr
      exact ⟨path, hpath, code, List.mem_cons_of_mem _ hcode, hinfix⟩

theorem firstCode_spells {depth : Nat} {generics : List String} :
    {ts : List TypeRef} → {code : Code} → s.firstCode depth generics ts = .ok code →
      ∀ r ∈ TypeRef.firstSpelled generics ts, ∃ path, s.path? depth r = some path ∧ path <:+: code
  | [], code, h => by
    rw [TypeRef.firstSpelled]
    exact List.forall_mem_nil _
  | t :: rest, code, h => by
    rw [firstCode] at h
    rw [TypeRef.firstSpelled]
    exact typeCode_spells h

end

end Generated.Surroundings

/-! ### Spelled types of items -/

namespace Generated
open Surroundings

theorem infix_braces (inner : Code) : inner <:+: braces inner :=
  ⟨[.symbol "\x7b"], [.symbol "\x7d"], rfl⟩

theorem infix_parens (inner : Code) : inner <:+: parens inner :=
  ⟨[.symbol "("], [.symbol ")"], rfl⟩

namespace Function
variable {f : Function} {type : Code}

theorem infix_param {name : String} (h : (name, type) ∈ f.params) : type <:+: f.code := by
  have hparam : type <:+: (.symbol name :: .symbol ":" :: type : Code) :=
    ((List.suffix_cons ..).trans (List.suffix_cons ..)).isInfix
  have hmem : (.symbol name :: .symbol ":" :: type : Code) ∈
      f.params.map fun p => (.symbol p.1 :: .symbol ":" :: p.2 : Code) :=
    List.mem_map.2 ⟨_, h, rfl⟩
  have hparens := hparam.trans ((infix_commas hmem).trans (infix_parens _))
  rw [code]
  exact hparens.trans ((List.suffix_append ..).isInfix.trans
    ((List.prefix_append ..).trans ((List.prefix_append ..).trans (List.prefix_append ..))).isInfix)

theorem infix_result : f.result <:+: f.code := by
  rw [code]
  exact ((List.suffix_cons ..).trans (List.suffix_append ..)).isInfix.trans
    ((List.prefix_append ..).trans (List.prefix_append ..)).isInfix

end Function

theorem infix_reference (type : Code) : type <:+: reference type := (List.suffix_cons ..).isInfix

theorem infix_fallible (type : Code) : type <:+: fallible type :=
  (infix_angles List.mem_cons_self).trans (List.suffix_append ..).isInfix

variable {s : Surroundings}

/-- The code of a class holds the types of its properties. -/
theorem classItem_types {d : Descriptor} {item : Generated.Item} (h : classItem s d = .ok item) :
    ∀ p ∈ d.properties, ∃ code, s.typeCode (depth d.key.ns) d.typeParams p.type = .ok code ∧
      code <:+: item.code := by
  obtain ⟨fields, hfields, -, -, before, hitem⟩ := classItem_eq_ok h
  intro p hp
  obtain ⟨field, hfield, hcode⟩ := exists_mem_of_mapM_eq_ok hfields hp
  obtain ⟨name, -, hcode⟩ := bind_eq_ok.1 hcode
  obtain ⟨type, htype, hcode⟩ := bind_eq_ok.1 hcode
  cases hcode
  rw [hitem]
  exact ⟨type, htype, (List.suffix_append ..).isInfix.trans ((infix_commas hfield).trans
    ((infix_braces _).trans (List.suffix_append ..).isInfix))⟩

theorem factoryParam_type {level : Nat} {p : Parameter} {q : FactoryParam}
    (h : factoryParam s level p = .ok q) :
    s.typeCode level [] p.type = .ok q.type ∧ q.type <:+: q.declaration.2 := by
  obtain ⟨name, -, h⟩ := bind_eq_ok.1 h
  obtain ⟨type, htype, h⟩ := bind_eq_ok.1 h
  cases h
  refine ⟨htype, ?_⟩
  unfold FactoryParam.declaration
  dsimp only
  split
  · exact (infix_angles List.mem_cons_self).trans (List.suffix_append ..).isInfix
  · exact List.infix_rfl

/-- The code of a container holds the types of its mapping and of the parameters of factories. -/
theorem mapperItem_types {u : MapUnit} {shared : Bool} {item : Generated.Item}
    (h : mapperItem s u shared = .ok item) :
    ∀ t ∈ u.source :: u.target :: (emittedFactories u).flatMap (fun f => f.2.parameters.map (·.type)),
      ∃ code, s.typeCode (depth u.target.ns) [] t = .ok code ∧ code <:+: item.code := by
  obtain ⟨source, target, plan, base, factories, hsource, htarget, hfactories, -, -, before,
    hcode⟩ := mapperItem_eq_ok h
  have hitem {f : Function} (hf : f ∈ mapperFunctions source target plan base ++ factories.flatten) :
      f.code <:+: item.code := by
    rw [hcode]
    exact (infix_flatMap (f := Function.code) hf).trans
      ((infix_braces _).trans (List.suffix_append ..).isInfix)
  let map := plainFunction "map" [("source", reference source)] (fallible target)
    (onMapper "map_typed" [Generated.word "source"])
  have hmap : map ∈ mapperFunctions source target plan base ++ factories.flatten :=
    List.mem_append_left _ (List.mem_cons_of_mem _ (List.mem_cons_of_mem _ List.mem_cons_self))
  refine List.forall_mem_cons.2 ⟨?_, List.forall_mem_cons.2 ⟨?_, fun t ht => ?_⟩⟩
  · have hparam : reference source <:+: map.code := Function.infix_param List.mem_cons_self
    exact ⟨source, hsource, (infix_reference source).trans (hparam.trans (hitem hmap))⟩
  · have hresult : fallible target <:+: map.code := map.infix_result
    exact ⟨target, htarget, (infix_fallible target).trans (hresult.trans (hitem hmap))⟩
  · obtain ⟨⟨plan, factory⟩, hfactory, ht⟩ := List.mem_flatMap.1 ht
    obtain ⟨p, hp, rfl⟩ := List.mem_map.1 ht
    obtain ⟨functions, hfunctions, hmade⟩ := exists_mem_of_mapM_eq_ok hfactories hfactory
    obtain ⟨params, hparams, hmade⟩ := bind_eq_ok.1 hmade
    cases hmade
    obtain ⟨q, hq, hparam⟩ := exists_mem_of_mapM_eq_ok hparams hp
    obtain ⟨htype, hdeclared⟩ := factoryParam_type hparam
    have hargs := hitem (List.mem_append_right _
      (List.mem_flatten.2 ⟨_, hfunctions, List.mem_cons_self⟩))
    have hmem : (q.declaration.1, q.declaration.2) ∈ params.map (·.declaration) :=
      List.mem_map_of_mem hq
    refine ⟨q.type, htype, hdeclared.trans (List.IsInfix.trans ?_ hargs)⟩
    exact Function.infix_param hmem

end Generated

/-! ### Spelled types of modules -/

namespace Emission

/-- The types that the structures and containers of the module at a path spell by paths. -/
def spelledAt (c : Compilation) (units : List MapUnit) (path : List String) : List TypeRef :=
  (classesAt c path).flatMap (fun d => d.properties.flatMap (·.type.spelled d.typeParams)) ++
    (mappersAt units path).flatMap fun u =>
      (u.source :: u.target :: (emittedFactories u).flatMap fun f => f.2.parameters.map (·.type)).flatMap
        (·.spelled [])

theorem Module.spells {s : Surroundings} {units : List MapUnit} {path : List String} {m : ModuleTree}
    (h : Module s units path m) : ∀ r ∈ spelledAt s.compilation units path,
      ∃ code, s.path? path.length r = some code ∧ code <:+: m.items.flatMap (·.code) := by
  obtain ⟨structs, containers, hitems, hstructs, hcontainers⟩ := h.items
  have hitem {item : Generated.Item} (hitem : item ∈ structs ++ containers) :
      item.code <:+: m.items.flatMap (·.code) :=
    infix_flatMap (f := Generated.Item.code) (hitems ▸ hitem)
  refine List.forall_mem_append.2 ⟨fun r hr => ?_, fun r hr => ?_⟩
  · obtain ⟨d, hd, hr⟩ := List.mem_flatMap.1 hr
    obtain ⟨p, hp, hr⟩ := List.mem_flatMap.1 hr
    obtain ⟨item, hstruct, hmade⟩ := exists_mem_of_mapM_eq_ok hstructs hd
    obtain ⟨type, htype, hcode⟩ := classItem_types hmade p hp
    have hdepth : depth d.key.ns = path.length :=
      congrArg List.length (mem_classesAt.1 hd).2
    obtain ⟨code, hpath, hinfix⟩ := Surroundings.typeCode_spells (hdepth ▸ htype) r hr
    exact ⟨code, hpath, hinfix.trans (hcode.trans (hitem (List.mem_append_left _ hstruct)))⟩
  · obtain ⟨u, hu, hr⟩ := List.mem_flatMap.1 hr
    obtain ⟨t, ht, hr⟩ := List.mem_flatMap.1 hr
    obtain ⟨item, hcontainer, hmade⟩ := exists_mem_of_mapM_eq_ok hcontainers hu
    obtain ⟨type, htype, hcode⟩ := mapperItem_types hmade t ht
    have hdepth : depth u.target.ns = path.length :=
      congrArg List.length (mem_mappersAt.1 hu).2.2
    obtain ⟨code, hpath, hinfix⟩ := Surroundings.typeCode_spells (hdepth ▸ htype) r hr
    exact ⟨code, hpath, hinfix.trans (hcode.trans (hitem (List.mem_append_right _ hcontainer)))⟩

end Emission

theorem Generated.factory_of_emitted {u : MapUnit} {f : FactoryPlan × Factory}
    (h : f ∈ emittedFactories u) : f.2 ∈ u.mapping.factories := by
  obtain ⟨plan, -, hfound⟩ := List.mem_filterMap.1 h
  obtain ⟨factory, hfactory, rfl⟩ := Option.map_eq_some_iff.1 hfound
  exact List.mem_of_find?_eq_some hfactory

/-- What a module spells has a name from the sources. -/
theorem Emits.isPath_spelled {inputs : List Input} {compiled : List CompiledType}
    {options : EmitOptions} {s : Surroundings} {units : List MapUnit} {tree : ModuleTree}
    {text : String} (h : Emits inputs compiled options s units tree text) {path : List String} :
    ∀ r ∈ Emission.spelledAt s.compilation units path, Name.IsPath r.name := by
  have hnamed {t r : TypeRef} {generics : List String} (ht : t.Named)
      (hr : r ∈ t.spelled generics) : Name.IsPath r.name := by
    cases ht.spelled r hr with
    | mk _ hname => exact hname
  refine List.forall_mem_append.2 ⟨fun r hr => ?_, fun r hr => ?_⟩
  · obtain ⟨d, hd, hr⟩ := List.mem_flatMap.1 hr
    obtain ⟨p, hp, hr⟩ := List.mem_flatMap.1 hr
    exact hnamed ((h.class_named d (Emission.mem_classesAt.1 hd).1).properties p hp) hr
  · obtain ⟨u, hu, hr⟩ := List.mem_flatMap.1 hr
    obtain ⟨t, ht, hr⟩ := List.mem_flatMap.1 hr
    obtain ⟨hu, hemitted, -⟩ := Emission.mem_mappersAt.1 hu
    obtain ⟨htarget, hsource⟩ := Bool.and_eq_true_iff.1 hemitted
    rcases List.mem_cons.1 ht with rfl | ht
    · rw [TypeRef.eq_of_spelled (List.isEmpty_iff.1 hsource) hr]
      exact (h.unit_named u hu).source
    rcases List.mem_cons.1 ht with rfl | ht
    · obtain ⟨d, hd, hkey⟩ := h.target_declared u hu
      rw [TypeRef.eq_of_spelled (List.isEmpty_iff.1 htarget) hr]
      have hname := (h.class_named d hd).name.isPath
      rwa [← congrArg TypeKey.name hkey] at hname
    · obtain ⟨f, hf, ht⟩ := List.mem_flatMap.1 ht
      obtain ⟨p, hp, rfl⟩ := List.mem_map.1 ht
      exact hnamed ((h.unit_named u hu).parameters f.2 (factory_of_emitted hf) p hp) hr

/-- Different types that a module of generated code spells have one path exactly if they have
one short name and are both spelled by it alone. -/
theorem spelling_shared_iff {inputs : List Input} {compiled : List CompiledType}
    {options : EmitOptions} {result : PassResult} {text : String}
    (h : compile inputs compiled options = .ok result) (hcode : result.code = some text) :
    ∃ s tree, Emits inputs compiled options s result.units tree text ∧
      ∀ m ∈ tree.modules, ∃ path, Emission.Module s result.units path m ∧
        let types := Emission.spelledAt s.compilation result.units path
        (∀ t ∈ types, ∃ code, s.path? path.length t = some code ∧
          code <:+: m.items.flatMap (·.code)) ∧
        ∀ a ∈ types, ∀ b ∈ types, a.key ≠ b.key →
          (s.path? path.length a = s.path? path.length b ↔
            a.name = b.name ∧ s.isBare path.length a = true ∧ s.isBare path.length b = true) := by
  obtain ⟨s, tree, hemits⟩ := emits_of_compile h hcode
  refine ⟨s, tree, hemits, fun m hm => ?_⟩
  obtain ⟨path, hmodule⟩ := hemits.modules.1 m hm
  refine ⟨path, hmodule, hmodule.spells, fun a ha b hb hne => ?_⟩
  have hword (t : TypeRef) (ht : t ∈ Emission.spelledAt s.compilation result.units path) :
      (identifier? t.name).isSome = true := by
    obtain ⟨code, hpath, -⟩ := hmodule.spells t ht
    have hsome := Option.isSome_iff_exists.2 ⟨code, hpath⟩
    rwa [Surroundings.path?, Option.isSome_map] at hsome
  exact Surroundings.path?_eq_iff (hword a ha) (hword b hb) (hemits.isPath_spelled a ha)
    (hemits.isPath_spelled b hb) hne

theorem spelling_shared_iff_twins : ∃ result text,
    compile Sample.twins [Sample.twinType "a", Sample.twinType "b"] .default = .ok result ∧
      result.code = some text ∧
      ∃ s tree, Emits Sample.twins [Sample.twinType "a", Sample.twinType "b"] .default s
        result.units tree text ∧
        ∀ m ∈ tree.modules, ∃ path, Emission.Module s result.units path m ∧
          ∀ a ∈ Emission.spelledAt s.compilation result.units path,
            ∀ b ∈ Emission.spelledAt s.compilation result.units path, a.key ≠ b.key →
              (s.path? path.length a = s.path? path.length b ↔ a.name = b.name ∧
                s.isBare path.length a = true ∧ s.isBare path.length b = true) := by
  obtain ⟨result, text, h, hcode, -⟩ := Sample.twins_compile
  obtain ⟨s, tree, hemits, hmodules⟩ := spelling_shared_iff h hcode
  refine ⟨result, text, h, hcode, s, tree, hemits, fun m hm => ?_⟩
  obtain ⟨path, hmodule, -, hiff⟩ := hmodules m hm
  exact ⟨path, hmodule, hiff⟩

/-- The module of a class that is mapped from two types of one short name spells both by it. -/
theorem spelling_shared : ∃ result text s tree,
    compile Sample.twins [Sample.twinType "a", Sample.twinType "b"] .default = .ok result ∧
      result.code = some text ∧
      Emits Sample.twins [Sample.twinType "a", Sample.twinType "b"] .default s result.units tree
        text ∧
      ∃ m ∈ tree.modules, ∃ path, Emission.Module s result.units path m ∧
        ∃ a ∈ Emission.spelledAt s.compilation result.units path,
          ∃ b ∈ Emission.spelledAt s.compilation result.units path, a.key ≠ b.key ∧
            ∃ code, s.path? path.length a = some code ∧ s.path? path.length b = some code := by
  obtain ⟨result, text, s, tree, m, h, hcode, -, hemits, hm, hmodule, hmappers⟩ :=
    Sample.twins_module
  have hspelled (ns : String) (hu : Sample.twinUnit ns ∈ Emission.mappersAt result.units ["m"])
      (hns : ns ≠ "") :
      .mk ns "U" [] ∈ Emission.spelledAt s.compilation result.units ["m"] := by
    refine List.mem_append_right _ (List.mem_flatMap.2 ⟨_, hu, List.mem_flatMap.2
      ⟨_, List.mem_cons_self, ?_⟩⟩)
    show TypeRef.mk ns "U" [] ∈ (TypeRef.mk ns "U" []).spelled []
    simp [TypeRef.spelled, TypeRef.builtin?, TypeRef.ns, hns]
  have ha := hspelled "a" (hmappers ▸ List.mem_cons_self) (by decide)
  have hb := hspelled "b" (hmappers ▸ List.mem_cons_of_mem _ List.mem_cons_self) (by decide)
  obtain ⟨code, hpath, -⟩ := hmodule.spells _ ha
  refine ⟨result, text, s, tree, h, hcode, hemits, m, hm, ["m"], hmodule, _, ha, _, hb, by decide,
    code, hpath, ?_⟩
  rw [← hpath]
  show (identifier? "U").map _ = (identifier? "U").map _
  congr 1
  funext word
  rw [Surroundings.named_of_isBare rfl, Surroundings.named_of_isBare rfl]

end StagedMapping
