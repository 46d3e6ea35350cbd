import Mathlib.Data.List.Nodup
import StagedMapping.Proofs.InputOrder
import StagedMapping.Proofs.KnownNames

/-! The names that a generated module declares: of the structures of its classes, of the
containers of its mappings, and of the modules inside. Structures never have one name, and
modules do not either. Containers may: two sources of one short name give a target two
containers of one name, and a container may have the name of a class or of a module. So the
names of a module differ exactly if those of the containers do, and if no container has the
name of a class and no module that of either (`names_nodup_iff`). -/
namespace StagedMapping
open Generated

/-! ### Distinct classes -/

namespace Compilation

theorem types_nodup (files : List SourceFile) (compiled : List CompiledType) :
    ((ofSources files compiled).types.map (·.2.qualified)).Nodup := by
  have hnames : (ofSources files compiled).types.map (·.2.qualified) =
      (Inventory.ofSources files compiled).value.sorted.map (·.1) := by
    rw [List.map_congr_left types_qualified, ofSources_types, List.map_map]
    rfl
  rw [hnames]
  exact ((List.mergeSort_perm ..).map _).nodup_iff.2 (Inventory.ofSources_nodup files compiled)

end Compilation

theorem Emission.declaredTypes_nodup {c : Compilation} (h : (c.types.map (·.2.qualified)).Nodup) :
    ((declaredTypes c).map (·.qualified)).Nodup := by
  have hperm := (List.mergeSort_perm ((c.types.map (·.2)).filter (·.declared.isSome))
    fun a b => a.key.le b.key).map (·.qualified)
  refine hperm.nodup_iff.2 (List.Nodup.sublist (List.filter_sublist.map _) ?_)
  rwa [List.map_map]

/-- Classes whose modules have one path are of one namespace. -/
theorem ns_eq_of_segments {d e : Descriptor} (hd : d.Named) (he : e.Named)
    (h : Name.segments d.key.ns = Name.segments e.key.ns) : d.key.ns = e.key.ns := by
  have hjoin {d : Descriptor} (hd : d.Named) :
      d.key.ns = Name.joinPath (Name.segments d.key.ns) := by
    obtain ⟨path, hns, hpath⟩ := hd.space
    rw [hns, Name.segments_joinPath fun name hname => (hpath name hname).toIsWord]
  rw [hjoin hd, hjoin he, h]

/-! ### Names of a module -/

/-- The names of items, then those of the modules inside. -/
def Generated.ModuleTree.names (m : ModuleTree) : List String := m.items.map (·.name) ++ m.childWords

namespace Emission

def classNames (c : Compilation) (path : List String) : List String :=
  (classesAt c path).map (·.key.name)

/-- The name of the container of a mapping. -/
def containerName (units : List MapUnit) (u : MapUnit) : String :=
  mapperName u.source u.target (isShared units u)

def containerNames (units : List MapUnit) (path : List String) : List String :=
  (mappersAt units path).map (containerName units)

theorem classItem_name {s : Surroundings} {d : Descriptor} {item : Generated.Item}
    (h : classItem s d = .ok item) : identifier? d.key.name = some item.name := by
  obtain ⟨fields, -, hname, -⟩ := classItem_eq_ok h
  exact hname

theorem mapperItem_name {s : Surroundings} {u : MapUnit} {shared : Bool} {item : Generated.Item}
    (h : mapperItem s u shared = .ok item) :
    identifier? (mapperName u.source u.target shared) = some item.name := by
  obtain ⟨source, target, plan, base, factories, -, -, -, hname, -⟩ := mapperItem_eq_ok h
  exact hname

/-- A module declares the identifiers of the names of its classes, of the containers of its
mappings, and of the modules inside. -/
theorem Module.names_eq {s : Surroundings} {units : List MapUnit} {path : List String}
    {m : ModuleTree} (h : Module s units path m) :
    ∃ segments : List String, segments.Nodup ∧
      (∀ name, name ∈ segments ↔ ∃ rest, path ++ name :: rest ∈ itemPaths s.compilation units) ∧
      m.names.map some =
        (classNames s.compilation path ++ containerNames units path ++ segments).map identifier? := by
  obtain ⟨structs, containers, hitems, hstructs, hcontainers⟩ := h.items
  obtain ⟨segments, hwords, hnodup, hsegments⟩ := h.children
  have hclasses : structs.map (some ·.name) =
      (classesAt s.compilation path).map (identifier? ·.key.name) :=
    map_eq_of_mapM_eq_ok hstructs fun d _ item hitem => (classItem_name hitem).symm
  have hmappers : containers.map (some ·.name) =
      (mappersAt units path).map fun u => identifier? (containerName units u) :=
    map_eq_of_mapM_eq_ok hcontainers fun u _ item hitem => (mapperItem_name hitem).symm
  refine ⟨segments, hnodup, hsegments, ?_⟩
  simp only [ModuleTree.names, hitems, List.map_append, hwords, classNames, containerNames,
    List.map_map]
  congr 2

theorem one_lt_length {α : Type} {xs : List α} {a b : α} (ha : a ∈ xs) (hb : b ∈ xs) (hne : a ≠ b) :
    1 < xs.length := by
  match xs, ha, hb with
  | [x], ha, hb => exact absurd ((List.mem_singleton.1 ha).trans (List.mem_singleton.1 hb).symm) hne
  | _ :: _ :: _, _, _ => simp

/-- Different mappings to one target share it. -/
theorem isShared_of_ne {units : List MapUnit} {u v : MapUnit} (hu : u ∈ units) (hv : v ∈ units)
    (hne : u ≠ v) (htarget : u.target.key = v.target.key) : isShared units u = true := by
  have hqualified : v.target.qualified = u.target.qualified :=
    congrArg TypeKey.qualified htarget.symm
  rw [isShared, decide_eq_true_eq, List.countP_eq_length_filter]
  exact one_lt_length (List.mem_filter.2 ⟨hu, beq_self_eq_true _⟩)
    (List.mem_filter.2 ⟨hv, beq_iff_eq.2 hqualified⟩) hne

/-- Two containers of one target have one name just if their sources have one short name. -/
theorem containerName_eq_iff {units : List MapUnit} {u v : MapUnit} (hu : u ∈ units) (hv : v ∈ units)
    (hne : u ≠ v) (htarget : u.target.key = v.target.key) :
    containerName units u = containerName units v ↔ u.source.name = v.source.name := by
  have hname : u.target.name = v.target.name := congrArg TypeKey.name htarget
  rw [containerName, containerName, isShared_of_ne hu hv hne htarget,
    isShared_of_ne hv hu hne.symm htarget.symm, mapperName, mapperName, if_pos rfl, if_pos rfl,
    hname, String.append_left_inj, String.append_right_inj]

end Emission

/-- Identifiers of different names are different. -/
theorem nodup_identifiers {words names : List String}
    (h : words.map some = names.map identifier?) (hpath : ∀ name ∈ names, Name.IsPath name) :
    words.Nodup ↔ names.Nodup := by
  have hinj : ∀ a ∈ names, ∀ b ∈ names, identifier? a = identifier? b → a = b := by
    intro a ha b hb he
    have hmem : identifier? a ∈ words.map some := h ▸ List.mem_map_of_mem ha
    obtain ⟨w, -, hw⟩ := List.mem_map.1 hmem
    exact identifier?_inj (hpath a ha) (hpath b hb) hw.symm (he ▸ hw.symm)
  constructor
  · intro hwords
    have hmap : (words.map some).Nodup := hwords.map fun _ _ => Option.some.inj
    rw [h] at hmap
    exact hmap.of_map
  · intro hnames
    have hmap : (names.map identifier?).Nodup := hnames.map_on hinj
    rw [← h] at hmap
    exact hmap.of_map

/-! ### Emitted names -/

namespace Emits
open Emission
variable {inputs : List Input} {compiled : List CompiledType} {options : EmitOptions}
  {s : Surroundings} {units : List MapUnit} {tree : ModuleTree} {text : String}
  (h : Emits inputs compiled options s units tree text)
include h

theorem types_nodup : ((declaredTypes s.compilation).map (·.qualified)).Nodup := by
  obtain ⟨files, -, hc⟩ := h.sources
  refine declaredTypes_nodup ?_
  rw [hc]
  exact Compilation.types_nodup files compiled

/-- Every item stands in the module of a class. -/
theorem mem_itemPaths {path : List String} : path ∈ itemPaths s.compilation units ↔
    ∃ d ∈ declaredTypes s.compilation, Name.segments d.key.ns = path := by
  unfold itemPaths
  rw [List.mem_append, List.mem_map]
  constructor
  · rintro (hclass | hmapper)
    · exact hclass
    · obtain ⟨u, hu, rfl⟩ := List.mem_map.1 hmapper
      obtain ⟨d, hd, hkey⟩ :=
        h.target_declared u (List.mem_mergeSort.1 (List.mem_filter.1 hu).1)
      exact ⟨d, hd, congrArg Name.segments (congrArg TypeKey.ns hkey.symm)⟩
  · exact .inl

theorem classNames_nodup (path : List String) : (classNames s.compilation path).Nodup := by
  have hdistinct := List.inj_on_of_nodup_map h.types_nodup
  refine List.Nodup.map_on (fun d hd e he hname => ?_) (h.types_nodup.of_map.sublist List.filter_sublist)
  obtain ⟨hd, hdpath⟩ := mem_classesAt.1 hd
  obtain ⟨he, hepath⟩ := mem_classesAt.1 he
  have hns : d.key.ns = e.key.ns :=
    ns_eq_of_segments (h.class_named d hd) (h.class_named e he) (hdpath.trans hepath.symm)
  refine hdistinct hd he ?_
  show Name.qualify d.key.ns d.key.name = Name.qualify e.key.ns e.key.name
  rw [hns, hname]

theorem isPath_className {path : List String} :
    ∀ name ∈ classNames s.compilation path, Name.IsPath name := by
  intro name hname
  obtain ⟨d, hd, rfl⟩ := List.mem_map.1 hname
  exact (h.class_named d (mem_classesAt.1 hd).1).name.isPath

theorem isPath_containerName {path : List String} :
    ∀ name ∈ containerNames units path, Name.IsPath name := by
  intro name hname
  obtain ⟨u, hu, rfl⟩ := List.mem_map.1 hname
  have hu := (mem_mappersAt.1 hu).1
  obtain ⟨d, hd, hkey⟩ := h.target_declared u hu
  have htarget : Name.IsPath u.target.name := by
    have hname := (h.class_named d hd).name.isPath
    rwa [← congrArg TypeKey.name hkey] at hname
  have hsource := (h.unit_named u hu).source
  unfold containerName mapperName
  split
  · simp only [Name.isPath_append]
    exact ⟨⟨⟨htarget, by decide⟩, hsource⟩, by decide⟩
  · rw [Name.isPath_append]
    exact ⟨htarget, by decide⟩

theorem isPath_segment {path : List String} {name : String} {rest : List String}
    (hpath : path ++ name :: rest ∈ itemPaths s.compilation units) : Name.IsPath name := by
  obtain ⟨d, hd, hsegments⟩ := h.mem_itemPaths.1 hpath
  obtain ⟨space, hns, hspace⟩ := (h.class_named d hd).space
  rw [hns, Name.segments_joinPath fun n hn => (hspace n hn).toIsWord] at hsegments
  exact (hspace name (by rw [hsegments]; simp)).isPath

end Emits

/-- Names that a module of generated code declares are the same only between containers,
between a container and a class, or between a module inside and an item. Two containers of one
target have one name just if their sources have one short name. -/
theorem names_nodup_iff {inputs : List Input} {compiled : List CompiledType} {options : EmitOptions}
    {result : PassResult} {text : String} (h : compile inputs compiled options = .ok result)
    (hcode : result.code = some text) :
    ∃ s tree, Emits inputs compiled options s result.units tree text ∧
      ∀ m ∈ tree.modules, ∃ path segments,
        let classes := Emission.classNames s.compilation path
        let containers := Emission.containerNames result.units path
        m.names.map some = (classes ++ containers ++ segments).map identifier? ∧
        (∀ name, name ∈ segments ↔ ∃ d ∈ Emission.declaredTypes s.compilation,
          ∃ rest, Name.segments d.key.ns = path ++ name :: rest) ∧
        (m.names.Nodup ↔ containers.Nodup ∧ (∀ name ∈ containers, name ∉ classes) ∧
          ∀ name ∈ segments, name ∉ classes ∧ name ∉ containers) ∧
        ∀ u ∈ Emission.mappersAt result.units path, ∀ v ∈ Emission.mappersAt result.units path,
          u ≠ v → u.target.key = v.target.key →
            (Emission.containerName result.units u = Emission.containerName result.units v ↔
              u.source.name = v.source.name) := by
  obtain ⟨s, tree, hemits⟩ := emits_of_compile h hcode
  refine ⟨s, tree, hemits, fun m hm => ?_⟩
  obtain ⟨path, hmodule⟩ := hemits.modules.1 m hm
  obtain ⟨segments, hsegments, hmem, hnames⟩ := hmodule.names_eq
  refine ⟨path, segments, hnames, fun name => ?_, ?_, fun u hu v hv hne htarget => ?_⟩
  · rw [hmem]
    constructor
    · rintro ⟨rest, hrest⟩
      obtain ⟨d, hd, hpath⟩ := hemits.mem_itemPaths.1 hrest
      exact ⟨d, hd, rest, hpath⟩
    · rintro ⟨d, hd, rest, hpath⟩
      exact ⟨rest, hemits.mem_itemPaths.2 ⟨d, hd, hpath⟩⟩
  · have hpath : ∀ name ∈ Emission.classNames s.compilation path ++
        Emission.containerNames result.units path ++ segments, Name.IsPath name := by
      rw [List.forall_mem_append, List.forall_mem_append]
      refine ⟨⟨hemits.isPath_className, hemits.isPath_containerName⟩, fun name hname => ?_⟩
      obtain ⟨rest, hrest⟩ := (hmem name).1 hname
      exact hemits.isPath_segment hrest
    rw [nodup_identifiers hnames hpath, List.nodup_append, List.nodup_append]
    have hclasses := hemits.classNames_nodup path
    constructor
    · rintro ⟨⟨-, hcontainers, hitems⟩, -, hinside⟩
      exact ⟨hcontainers, fun name hname hclass => hitems name hclass name hname rfl,
        fun name hname => ⟨fun hclass => hinside name (List.mem_append_left _ hclass) name hname rfl,
          fun hcontainer => hinside name (List.mem_append_right _ hcontainer) name hname rfl⟩⟩
    · rintro ⟨hcontainers, hitems, hinside⟩
      refine ⟨⟨hclasses, hcontainers, ?_⟩, hsegments, ?_⟩
      · rintro name hclass _ hname rfl
        exact hitems name hname hclass
      · rintro name hitem _ hname rfl
        exact (List.mem_append.1 hitem).elim (hinside name hname).1 (hinside name hname).2
  · exact Emission.containerName_eq_iff (Emission.mem_mappersAt.1 hu).1
      (Emission.mem_mappersAt.1 hv).1 hne htarget

theorem names_nodup_iff_twins : ∃ result text,
    compile Sample.twins [Sample.twinType "a", Sample.twinType "b"] .default = .ok result ∧
      result.code = some text ∧
      ∃ s tree, Emits Sample.twins [Sample.twinType "a", Sample.twinType "b"] .default s
        result.units tree text ∧
        ∀ m ∈ tree.modules, ∃ path segments,
          m.names.map some = (Emission.classNames s.compilation path ++
            Emission.containerNames result.units path ++ segments).map identifier? ∧
          (m.names.Nodup ↔ (Emission.containerNames result.units path).Nodup ∧
            (∀ name ∈ Emission.containerNames result.units path,
              name ∉ Emission.classNames s.compilation path) ∧
            ∀ name ∈ segments, name ∉ Emission.classNames s.compilation path ∧
              name ∉ Emission.containerNames result.units path) := by
  obtain ⟨result, text, h, hcode, -⟩ := Sample.twins_compile
  obtain ⟨s, tree, hemits, hmodules⟩ := names_nodup_iff h hcode
  refine ⟨result, text, h, hcode, s, tree, hemits, fun m hm => ?_⟩
  obtain ⟨path, segments, hnames, -, hiff, -⟩ := hmodules m hm
  exact ⟨path, segments, hnames, hiff⟩

/-- A target that is mapped from two types of one short name has two containers of one name. -/
theorem names_repeated : ∃ result text s tree,
    compile Sample.twins [Sample.twinType "a", Sample.twinType "b"] .default = .ok result ∧
      result.code = some text ∧
      Emits Sample.twins [Sample.twinType "a", Sample.twinType "b"] .default s result.units tree
        text ∧
      ∃ m ∈ tree.modules, ¬ m.names.Nodup := by
  obtain ⟨result, text, s, tree, m, h, hcode, hunits, hemits, hm, hmodule, hmappers⟩ :=
    Sample.twins_module
  refine ⟨result, text, s, tree, h, hcode, hemits, m, hm, fun hnodup => ?_⟩
  obtain ⟨segments, -, -, hnames⟩ := hmodule.names_eq
  have hcontainers : Emission.containerNames result.units ["m"] =
      ["UFromUMapper", "UFromUMapper"] := by
    rw [Emission.containerNames, hmappers, hunits]
    decide
  have hmap : (m.names.map some).Nodup := hnodup.map fun _ _ => Option.some.inj
  rw [hnames, hcontainers] at hmap
  have hsame := hmap.of_map.of_append_left.of_append_right
  exact absurd hsame (by decide)

end StagedMapping
