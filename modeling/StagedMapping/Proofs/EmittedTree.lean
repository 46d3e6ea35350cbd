import Mathlib
import StagedMapping.Pass
import StagedMapping.Proofs.Outcomes

/-! The tree of generated modules. `ModuleTree.modules` lists the modules of a tree. In the
tree that items are grouped into, the items of a module are those with its path, in order,
and the modules inside have the identifiers of the next segments of longer paths. A pass with
code emits such a tree (`emits_of_compile`): each of its modules holds the structures of the
classes of one namespace and the containers of the mappings to them (`Emits.modules`). -/
namespace StagedMapping
open Generated

namespace Generated.ModuleTree

def items : ModuleTree → List Item
  | node _ items _ => items

/-- The identifiers of the modules directly inside. -/
def childWords : ModuleTree → List String
  | node _ _ children => children.map (·.1)

mutual

/-- The module itself, and all modules inside. -/
def modules : ModuleTree → List ModuleTree
  | node uses items children => node uses items children :: modulesOf children

def modulesOf : List (String × ModuleTree) → List ModuleTree
  | [] => []
  | (_, t) :: rest => t.modules ++ modulesOf rest

end

theorem mem_modulesOf {children : List (String × ModuleTree)} {m : ModuleTree} :
    m ∈ modulesOf children ↔ ∃ t ∈ children, m ∈ t.2.modules := by
  induction children with
  | nil => simp [modulesOf]
  | cons t rest ih => simp [modulesOf, ih]

/-! ### Items by paths -/

/-- The items under the module at a path. -/
def under (path : List String) (placed : List Placed) : List Placed :=
  path.foldl (fun placed name => inside name placed) placed

theorem inside_cons_same (name : String) (path : List String) (item : Item) (rest : List Placed) :
    inside name (⟨name :: path, item⟩ :: rest) = ⟨path, item⟩ :: inside name rest := by
  simp [inside]

theorem inside_cons_other {name : String} {p : Placed} (h : p.path.head? ≠ some name)
    (rest : List Placed) : inside name (p :: rest) = inside name rest := by
  obtain ⟨path, item⟩ := p
  cases path with
  | nil => simp [inside]
  | cons first more =>
    have hfirst : first ≠ name := fun he => h (congrArg some he)
    simp [inside, hfirst]

theorem filter_inside (name : String) (path : List String) (placed : List Placed) :
    ((inside name placed).filter (·.path = path)).map (·.item) =
      (placed.filter (·.path = name :: path)).map (·.item) := by
  induction placed with
  | nil => rfl
  | cons p rest ih =>
    obtain ⟨q, item⟩ := p
    by_cases hq : q.head? = some name
    · obtain ⟨more, rfl⟩ := List.head?_eq_some_iff.1 hq
      rw [inside_cons_same, List.filter_cons, List.filter_cons]
      by_cases hmore : more = path <;> simp [hmore, ih]
    · have hne : q ≠ name :: path := fun he => hq (he ▸ rfl)
      rw [inside_cons_other hq, List.filter_cons_of_neg (by simpa using hne), ih]

/-- The items of a module are those with its path. -/
theorem here_under (path : List String) (placed : List Placed) :
    here (under path placed) = (placed.filter (·.path = path)).map (·.item) := by
  induction path generalizing placed with
  | nil =>
    show placed.filterMap _ = _
    induction placed with
    | nil => rfl
    | cons p rest ih =>
      rw [List.filterMap_cons, List.filter_cons, ih]
      obtain ⟨q, item⟩ := p
      cases q <;> simp
  | cons name path ih => exact (ih (inside name placed)).trans (filter_inside name path placed)

theorem mem_inside {name : String} {placed : List Placed} {path : List String} {item : Item} :
    ⟨path, item⟩ ∈ inside name placed ↔ ⟨name :: path, item⟩ ∈ placed := by
  induction placed with
  | nil => simp [inside]
  | cons p rest ih =>
    obtain ⟨q, i⟩ := p
    by_cases hq : q.head? = some name
    · obtain ⟨more, rfl⟩ := List.head?_eq_some_iff.1 hq
      simp [inside_cons_same, ih]
    · have hne : ¬ name :: path = q := fun he => hq (he ▸ rfl)
      simp [inside_cons_other (p := ⟨q, i⟩) hq, ih, hne]

theorem mem_under {path : List String} {placed : List Placed} {rest : List String} {item : Item} :
    ⟨rest, item⟩ ∈ under path placed ↔ ⟨path ++ rest, item⟩ ∈ placed := by
  induction path generalizing placed with
  | nil => rfl
  | cons name path ih => exact ih.trans mem_inside

/-! ### Names of modules -/

theorem nodup_eraseDups {α : Type} [BEq α] [LawfulBEq α] (xs : List α) : xs.eraseDups.Nodup := by
  match xs with
  | [] => simp
  | x :: rest =>
    have : (rest.filter fun y => !y == x).length < rest.length + 1 :=
      Nat.lt_succ_of_le (List.length_filter_le ..)
    rw [List.eraseDups_cons]
    refine List.nodup_cons.2 ⟨?_, nodup_eraseDups _⟩
    rw [List.mem_eraseDups]
    simp
termination_by xs.length

theorem childNames_nodup (placed : List Placed) : (childNames placed).Nodup :=
  (List.mergeSort_perm ..).nodup_iff.2 (nodup_eraseDups _)

theorem mem_childNames {placed : List Placed} {name : String} :
    name ∈ childNames placed ↔ ∃ rest item, ⟨name :: rest, item⟩ ∈ placed := by
  unfold childNames
  rw [List.mem_mergeSort, List.mem_eraseDups, List.mem_filterMap]
  constructor
  · rintro ⟨⟨path, item⟩, hp, hname⟩
    obtain ⟨rest, rfl⟩ := List.head?_eq_some_iff.1 hname
    exact ⟨rest, item, hp⟩
  · rintro ⟨rest, item, hp⟩
    exact ⟨_, hp, rfl⟩

/-! ### The tree that items are grouped into -/

/-- What the module at a path is made of. -/
structure Holds (path : List String) (placed : List Placed) (m : ModuleTree) : Prop where
  items : m.items = (placed.filter (·.path = path)).map (·.item)
  children : m.childWords.map some = (childNames (under path placed)).map identifier?

theorem identifier_eq_ok {role : NameRole} {name w : String} :
    identifier role name = .ok w ↔ identifier? name = some w := by
  unfold identifier
  cases identifier? name <;> simp

theorem under_concat (path : List String) (name : String) (placed : List Placed) :
    under (path ++ [name]) placed = inside name (under path placed) := by
  rw [under, List.foldl_append]
  rfl

theorem childNames_eq_nil {path : List String} {placed : List Placed}
    (h : ∀ p ∈ placed, p.path.length ≤ path.length) : childNames (under path placed) = [] := by
  rw [List.eq_nil_iff_forall_not_mem]
  intro name hname
  obtain ⟨rest, item, hp⟩ := mem_childNames.1 hname
  have hlength := h _ (mem_under.1 hp)
  rw [List.length_append, List.length_cons] at hlength
  omega

/-- A module that was made, with its parts. -/
theorem ofPlaced_succ_eq_ok {path : List String} {levels : Nat} {placed : List Placed}
    {tree : ModuleTree} (h : ofPlaced path (levels + 1) placed = .ok tree) :
    ∃ uses children, tree = node uses (here placed) children ∧
      (importedSpaces (Name.joinPath path) ((here placed).flatMap (·.references))).mapM
        (useOf path) = .ok uses ∧
      children.map (some ·.1) = (childNames placed).map identifier? ∧
      (∀ t ∈ children, ∃ name ∈ childNames placed, identifier? name = some t.1 ∧
        ofPlaced (path ++ [name]) levels (inside name placed) = .ok t.2) ∧
      ∀ name ∈ childNames placed, ∃ t ∈ children, identifier? name = some t.1 ∧
        ofPlaced (path ++ [name]) levels (inside name placed) = .ok t.2 := by
  rw [ofPlaced] at h
  obtain ⟨uses, huses, h⟩ := bind_eq_ok.1 h
  obtain ⟨children, hchildren, h⟩ := bind_eq_ok.1 h
  have hmade (name : String) (t : String × ModuleTree)
      (ht : (do
        let word ← identifier .namespaceSegment name
        return (word, ← ofPlaced (path ++ [name]) levels (inside name placed)) :
          Except EmitError (String × ModuleTree)) = .ok t) :
      identifier? name = some t.1 ∧
        ofPlaced (path ++ [name]) levels (inside name placed) = .ok t.2 := by
    obtain ⟨word, hword, ht⟩ := bind_eq_ok.1 ht
    obtain ⟨child, hchild, ht⟩ := bind_eq_ok.1 ht
    cases ht
    exact ⟨identifier_eq_ok.1 hword, hchild⟩
  refine ⟨uses, children, (Except.ok.inj h).symm, huses, ?_, fun t ht => ?_, fun name hname => ?_⟩
  · exact map_eq_of_mapM_eq_ok hchildren fun name _ t ht => (hmade name t ht).1.symm
  · obtain ⟨name, hmem, hname⟩ := exists_of_mapM_eq_ok hchildren ht
    exact ⟨name, hmem, hmade name t hname⟩
  · obtain ⟨t, ht, he⟩ := exists_mem_of_mapM_eq_ok hchildren hname
    exact ⟨t, ht, hmade name t he⟩

theorem ofPlaced_zero_eq_ok {path : List String} {placed : List Placed} {tree : ModuleTree}
    (h : ofPlaced path 0 placed = .ok tree) : ∃ uses, tree = node uses (here placed) [] ∧
      (importedSpaces (Name.joinPath path) ((here placed).flatMap (·.references))).mapM
        (useOf path) = .ok uses := by
  rw [ofPlaced] at h
  obtain ⟨uses, huses, h⟩ := bind_eq_ok.1 h
  exact ⟨uses, (Except.ok.inj h).symm, huses⟩

section
variable {placed : List Placed}

/-- The module at a path is made of what is under that path. -/
theorem ofPlaced_holds {levels : Nat} {path : List String} {tree : ModuleTree}
    (h : ofPlaced path levels (under path placed) = .ok tree)
    (hlevels : ∀ p ∈ placed, p.path.length ≤ path.length + levels) : Holds path placed tree := by
  cases levels with
  | zero =>
    obtain ⟨uses, rfl, -⟩ := ofPlaced_zero_eq_ok h
    refine ⟨here_under .., ?_⟩
    rw [childNames_eq_nil hlevels]
    rfl
  | succ levels =>
    obtain ⟨uses, children, rfl, -, hwords, -⟩ := ofPlaced_succ_eq_ok h
    refine ⟨here_under .., ?_⟩
    rw [← hwords, childWords, List.map_map]
    rfl

theorem levels_inside {levels : Nat} {path : List String} (name : String)
    (h : ∀ p ∈ placed, p.path.length ≤ path.length + (levels + 1)) :
    ∀ p ∈ placed, p.path.length ≤ (path ++ [name]).length + levels := by
  intro p hp
  have := h p hp
  rw [List.length_append, List.length_singleton]
  omega

theorem ofPlaced_modules {levels : Nat} {path : List String} {tree : ModuleTree}
    (h : ofPlaced path levels (under path placed) = .ok tree)
    (hlevels : ∀ p ∈ placed, p.path.length ≤ path.length + levels) :
    ∀ m ∈ tree.modules, ∃ path, Holds path placed m := by
  induction levels generalizing path tree with
  | zero =>
    have hholds := ofPlaced_holds h hlevels
    obtain ⟨uses, rfl, -⟩ := ofPlaced_zero_eq_ok h
    intro m hm
    rw [modules, modulesOf, List.mem_singleton] at hm
    exact ⟨path, hm ▸ hholds⟩
  | succ levels ih =>
    have hholds := ofPlaced_holds h hlevels
    obtain ⟨uses, children, rfl, -, -, hchildren, -⟩ := ofPlaced_succ_eq_ok h
    intro m hm
    rw [modules, List.mem_cons, mem_modulesOf] at hm
    rcases hm with rfl | ⟨t, ht, hm⟩
    · exact ⟨path, hholds⟩
    · obtain ⟨name, -, -, hname⟩ := hchildren t ht
      rw [← under_concat] at hname
      exact ih hname (levels_inside name hlevels) m hm

/-- Everything that is placed has its module. -/
theorem exists_holds {levels : Nat} {path : List String} {tree : ModuleTree}
    (h : ofPlaced path levels (under path placed) = .ok tree)
    (hlevels : ∀ p ∈ placed, p.path.length ≤ path.length + levels) {rest : List String}
    {item : Item} (hitem : ⟨rest, item⟩ ∈ under path placed) :
    ∃ m ∈ tree.modules, Holds (path ++ rest) placed m := by
  induction rest generalizing levels path tree with
  | nil =>
    rw [List.append_nil]
    refine ⟨tree, ?_, ofPlaced_holds h hlevels⟩
    cases tree
    rw [modules]
    exact List.mem_cons_self
  | cons name rest ih =>
    have hname : name ∈ childNames (under path placed) := mem_childNames.2 ⟨rest, item, hitem⟩
    cases levels with
    | zero =>
      rw [childNames_eq_nil hlevels] at hname
      cases hname
    | succ levels =>
      obtain ⟨uses, children, rfl, -, -, -, hchildren⟩ := ofPlaced_succ_eq_ok h
      obtain ⟨t, ht, -, hmade⟩ := hchildren name hname
      rw [← under_concat] at hmade
      obtain ⟨m, hm, hholds⟩ := ih hmade (levels_inside name hlevels)
        (under_concat path name placed ▸ mem_inside.2 hitem)
      refine ⟨m, ?_, by rwa [List.append_cons]⟩
      rw [modules, List.mem_cons, mem_modulesOf]
      exact .inr ⟨t, ht, hm⟩

end

/-- Every segment of the paths and of the namespaces that are referred to has an identifier. -/
def Spellable (placed : List Placed) : Prop :=
  ∀ p ∈ placed, (∀ name ∈ p.path, (identifier? name).isSome = true) ∧
    ∀ r ∈ p.item.references, ∀ name ∈ Name.segments r.ns, (identifier? name).isSome = true

instance (placed : List Placed) : Decidable (Spellable placed) :=
  inferInstanceAs (Decidable (∀ p ∈ placed, _ ∧ _))

theorem Spellable.inside {placed : List Placed} (h : Spellable placed) (name : String) :
    Spellable (inside name placed) := by
  rintro ⟨path, item⟩ hp
  obtain ⟨hpath, hitem⟩ := h _ (mem_inside.1 hp)
  exact ⟨fun n hn => hpath n (List.mem_cons_of_mem _ hn), hitem⟩

theorem mem_importedSpaces {ns : String} {references : List Reference} {r : Reference} :
    r ∈ importedSpaces ns references ↔ r ∈ references ∧ r.isImported ns = true := by
  rw [importedSpaces, List.mem_mergeSort, List.mem_eraseDups, List.mem_filter]

theorem exists_uses {placed : List Placed} (h : Spellable placed) (path : List String) :
    ∃ uses, (importedSpaces (Name.joinPath path)
      ((here placed).flatMap (·.references))).mapM (useOf path) = .ok uses := by
  refine exists_mapM_eq_ok fun r hr => ?_
  obtain ⟨item, hitem, hr⟩ := List.mem_flatMap.1 (mem_importedSpaces.1 hr).1
  obtain ⟨p, hp, hitem⟩ := List.mem_filterMap.1 hitem
  split at hitem
  · cases hitem
    obtain ⟨segments, hsegments⟩ := exists_mapM_eq_ok (f := identifier .namespaceSegment)
      fun name hname => by
        obtain ⟨w, hw⟩ := Option.isSome_iff_exists.1 ((h p hp).2 r hr name hname)
        exact ⟨w, identifier_eq_ok.2 hw⟩
    cases hhome : r.home <;> exact ⟨_, bind_eq_ok.2 ⟨segments, hsegments, by rw [hhome]; rfl⟩⟩
  · cases hitem

/-- Items whose paths and references can be spelled make a tree. -/
theorem exists_ofPlaced (levels : Nat) {placed : List Placed} (h : Spellable placed)
    (path : List String) : ∃ tree, ofPlaced path levels placed = .ok tree := by
  induction levels generalizing path placed with
  | zero =>
    obtain ⟨uses, huses⟩ := exists_uses h path
    rw [ofPlaced]
    exact ⟨_, bind_eq_ok.2 ⟨uses, huses, rfl⟩⟩
  | succ levels ih =>
    obtain ⟨uses, huses⟩ := exists_uses h path
    have hchildren : ∃ children, (childNames placed).mapM (fun name => do
        let word ← identifier .namespaceSegment name
        return (word, ← ofPlaced (path ++ [name]) levels (inside name placed))) =
          Except.ok children := by
      refine exists_mapM_eq_ok fun name hname => ?_
      obtain ⟨rest, item, hitem⟩ := mem_childNames.1 hname
      obtain ⟨w, hw⟩ := Option.isSome_iff_exists.1 ((h _ hitem).1 name List.mem_cons_self)
      obtain ⟨child, hchild⟩ := ih (h.inside name) (path ++ [name])
      exact ⟨_, bind_eq_ok.2 ⟨w, identifier_eq_ok.2 hw, bind_eq_ok.2 ⟨child, hchild, rfl⟩⟩⟩
    obtain ⟨children, hchildren⟩ := hchildren
    rw [ofPlaced]
    exact ⟨_, bind_eq_ok.2 ⟨uses, huses, bind_eq_ok.2 ⟨children, hchildren, rfl⟩⟩⟩

end Generated.ModuleTree

/-! ### Items that were made -/

namespace Generated
variable {s : Surroundings} {item : Item}

/-- A structure that was made, with its parts. -/
theorem classItem_eq_ok {d : Descriptor} (h : classItem s d = .ok item) :
    ∃ fields, d.properties.mapM (fieldCode s (depth d.key.ns) d.typeParams) = .ok fields ∧
      identifier? d.key.name = some item.name ∧
      item.references = d.properties.flatMap (fun p => s.references d.typeParams p.type) ∧
      ∃ before, item.code = before ++ braces (commas fields) := by
  obtain ⟨word, hword, h⟩ := bind_eq_ok.1 h
  obtain ⟨params, -, h⟩ := bind_eq_ok.1 h
  obtain ⟨fields, hfields, h⟩ := bind_eq_ok.1 h
  cases h
  exact ⟨fields, hfields, ModuleTree.identifier_eq_ok.1 hword, rfl, _, rfl⟩

/-- A container that was made, with its parts: its functions are those that every container has,
and those of its factories. -/
theorem mapperItem_eq_ok {u : MapUnit} {shared : Bool} (h : mapperItem s u shared = .ok item) :
    ∃ source target plan base factories,
      s.typeCode (depth u.target.ns) [] u.source = .ok source ∧
      s.typeCode (depth u.target.ns) [] u.target = .ok target ∧
      (emittedFactories u).mapM (fun f => do
        return factoryFunctions source target ("to_" ++ Name.toSnake u.target.name) f.1.digest
          f.1.declaration (← f.2.parameters.mapM (factoryParam s (depth u.target.ns)))) =
        .ok factories ∧
      identifier? (mapperName u.source u.target shared) = some item.name ∧
      item.references = s.references [] u.source ++ s.references [] u.target ++
        (emittedFactories u).flatMap (fun f => f.2.parameters.flatMap (s.references [] ·.type)) ∧
      ∃ before, item.code = before ++
        braces ((mapperFunctions source target plan base ++ factories.flatten).flatMap (·.code)) := by
  obtain ⟨word, hword, h⟩ := bind_eq_ok.1 h
  obtain ⟨source, hsource, h⟩ := bind_eq_ok.1 h
  obtain ⟨target, htarget, h⟩ := bind_eq_ok.1 h
  obtain ⟨base, -, h⟩ := bind_eq_ok.1 h
  obtain ⟨plan, -, h⟩ := bind_eq_ok.1 h
  obtain ⟨factories, hfactories, h⟩ := bind_eq_ok.1 h
  cases h
  exact ⟨source, target, plan, base, factories, hsource, htarget, hfactories,
    ModuleTree.identifier_eq_ok.1 hword, rfl, _, rfl⟩

end Generated

/-! ### The items of a pass -/

namespace Emission
open Generated.ModuleTree

/-- The classes with structures in the module at a path. -/
def classesAt (c : Compilation) (path : List String) : List Descriptor :=
  (declaredTypes c).filter fun d => Name.segments d.key.ns = path

/-- The mappings with containers in the module at a path. -/
def mappersAt (units : List MapUnit) (path : List String) : List MapUnit :=
  ((units.mergeSort unitLe).filter isEmitted).filter fun u => Name.segments u.target.ns = path

theorem mem_classesAt {c : Compilation} {path : List String} {d : Descriptor} :
    d ∈ classesAt c path ↔ d ∈ declaredTypes c ∧ Name.segments d.key.ns = path := by
  rw [classesAt, List.mem_filter, decide_eq_true_eq]

theorem mem_mappersAt {units : List MapUnit} {path : List String} {u : MapUnit} :
    u ∈ mappersAt units path ↔
      u ∈ units ∧ isEmitted u = true ∧ Name.segments u.target.ns = path := by
  rw [mappersAt, List.mem_filter, List.mem_filter, List.mem_mergeSort, decide_eq_true_eq, and_assoc]

/-- Among things that are placed, those at a path are those with that path. -/
theorem placed_at {α : Type} {paths : α → List String} {make : α → Except EmitError Generated.Item}
    {xs : List α} {placed : List Placed}
    (h : (xs.mapM fun x => do return (⟨paths x, ← make x⟩ : Placed)) = .ok placed)
    (path : List String) :
    (xs.filter (paths · = path)).mapM make =
      .ok ((placed.filter (·.path = path)).map (·.item)) := by
  rw [mapM_eq_ok_iff] at h ⊢
  induction xs generalizing placed with
  | nil =>
    rw [List.map_eq_nil_iff.1 h.symm]
    rfl
  | cons x rest ih =>
    cases placed with
    | nil => cases h
    | cons p placed =>
      obtain ⟨hx, hrest⟩ := List.cons.inj h
      obtain ⟨item, hitem, hp⟩ := bind_eq_ok.1 hx
      cases hp
      by_cases hpath : paths x = path
      · simp [hpath, hitem, ih hrest]
      · simp [hpath, ih hrest]

/-- The items at a path: the structures of its classes, then the containers of its mappings. -/
theorem placedItems_at {s : Surroundings} {units : List MapUnit} {placed : List Placed}
    (h : placedItems s units = .ok placed) (path : List String) :
    ∃ structs containers, (placed.filter (·.path = path)).map (·.item) = structs ++ containers ∧
      (classesAt s.compilation path).mapM (classItem s) = .ok structs ∧
      (mappersAt units path).mapM (fun u => mapperItem s u (isShared units u)) = .ok containers := by
  unfold placedItems at h
  obtain ⟨classes, hclasses, h⟩ := bind_eq_ok.1 h
  obtain ⟨mappers, hmappers, h⟩ := bind_eq_ok.1 h
  cases h
  exact ⟨_, _, by rw [List.filter_append, List.map_append], placed_at hclasses path,
    placed_at hmappers path⟩

/-- The paths of the modules that items stand in. -/
def itemPaths (c : Compilation) (units : List MapUnit) : List (List String) :=
  (declaredTypes c).map (Name.segments ·.key.ns) ++
    ((units.mergeSort unitLe).filter isEmitted).map (Name.segments ·.target.ns)

theorem placedItems_paths {s : Surroundings} {units : List MapUnit} {placed : List Placed}
    (h : placedItems s units = .ok placed) :
    placed.map (·.path) = itemPaths s.compilation units := by
  unfold placedItems at h
  obtain ⟨classes, hclasses, h⟩ := bind_eq_ok.1 h
  obtain ⟨mappers, hmappers, h⟩ := bind_eq_ok.1 h
  cases h
  rw [List.map_append, itemPaths]
  congr 1
  · refine map_eq_of_mapM_eq_ok hclasses fun d _ p hp => ?_
    obtain ⟨item, -, hp⟩ := bind_eq_ok.1 hp
    cases hp
    rfl
  · refine map_eq_of_mapM_eq_ok hmappers fun u _ p hp => ?_
    obtain ⟨item, -, hp⟩ := bind_eq_ok.1 hp
    cases hp
    rfl

/-- What the module at a path is made of: the structures of classes, the containers of
mappings, and modules for the next segments of longer paths. -/
structure Module (s : Surroundings) (units : List MapUnit) (path : List String)
    (m : ModuleTree) : Prop where
  items : ∃ structs containers, m.items = structs ++ containers ∧
    (classesAt s.compilation path).mapM (classItem s) = .ok structs ∧
    (mappersAt units path).mapM (fun u => mapperItem s u (isShared units u)) = .ok containers
  children : ∃ names : List String, m.childWords.map some = names.map identifier? ∧ names.Nodup ∧
    ∀ name, name ∈ names ↔ ∃ rest, path ++ name :: rest ∈ itemPaths s.compilation units

theorem module_of_holds {s : Surroundings} {units : List MapUnit} {placed : List Placed}
    (h : placedItems s units = .ok placed) {path : List String} {m : ModuleTree}
    (hm : Holds path placed m) : Module s units path m where
  items := by
    rw [hm.items]
    exact placedItems_at h path
  children := by
    refine ⟨_, hm.children, childNames_nodup _, fun name => ?_⟩
    rw [mem_childNames, ← placedItems_paths h]
    constructor
    · rintro ⟨rest, item, hitem⟩
      exact ⟨rest, List.mem_map.2 ⟨_, mem_under.1 hitem, rfl⟩⟩
    · rintro ⟨rest, hrest⟩
      obtain ⟨⟨path, item⟩, hitem, rfl⟩ := List.mem_map.1 hrest
      exact ⟨rest, item, mem_under.2 hitem⟩

theorem le_foldl_max {n start : Nat} {ns : List Nat} (h : n ≤ start ∨ n ∈ ns) :
    n ≤ ns.foldl max start := by
  induction ns generalizing start with
  | nil => exact h.resolve_right List.not_mem_nil
  | cons k rest ih =>
    rw [List.foldl_cons]
    refine ih ?_
    rcases h with h | h
    · exact .inl (Nat.le_trans h (Nat.le_max_left ..))
    · rcases List.mem_cons.1 h with rfl | h
      · exact .inl (Nat.le_max_right ..)
      · exact .inr h

/-- The tree is made of all items, with as many levels as their paths are long. -/
theorem moduleTree_eq_ok {s : Surroundings} {units : List MapUnit} {tree : ModuleTree}
    {references : List Reference} (h : moduleTree s units = .ok (tree, references)) :
    ∃ placed levels, placedItems s units = .ok placed ∧ ofPlaced [] levels placed = .ok tree ∧
      ∀ p ∈ placed, p.path.length ≤ levels := by
  unfold moduleTree at h
  obtain ⟨placed, hplaced, h⟩ := bind_eq_ok.1 h
  obtain ⟨made, hmade, h⟩ := bind_eq_ok.1 h
  cases h
  exact ⟨placed, _, hplaced, hmade, fun p hp => le_foldl_max (.inr (List.mem_map_of_mem hp))⟩

/-- The modules of the tree are those at the paths of items, and those around them. -/
theorem moduleTree_modules {s : Surroundings} {units : List MapUnit} {tree : ModuleTree}
    {references : List Reference} (h : moduleTree s units = .ok (tree, references)) :
    (∀ m ∈ tree.modules, ∃ path, Module s units path m) ∧
      ∀ path ∈ itemPaths s.compilation units, ∃ m ∈ tree.modules, Module s units path m := by
  obtain ⟨placed, levels, hplaced, hmade, hlevels⟩ := moduleTree_eq_ok h
  have hmade : ofPlaced [] levels (under [] placed) = .ok tree := hmade
  have hlevels : ∀ p ∈ placed, p.path.length ≤ ([] : List String).length + levels := by
    simpa using hlevels
  constructor
  · intro m hm
    obtain ⟨path, hpath⟩ := ofPlaced_modules hmade hlevels m hm
    exact ⟨path, module_of_holds hplaced hpath⟩
  · intro path hpath
    rw [← placedItems_paths hplaced] at hpath
    obtain ⟨⟨path, item⟩, hitem, rfl⟩ := List.mem_map.1 hpath
    obtain ⟨m, hm, hholds⟩ := exists_holds hmade hlevels hitem
    exact ⟨m, hm, module_of_holds hplaced hholds⟩

theorem exists_moduleTree {s : Surroundings} {units : List MapUnit} {placed : List Placed}
    (h : placedItems s units = .ok placed) (hspellable : Spellable placed) :
    ∃ tree, moduleTree s units = .ok (tree, placed.flatMap (·.item.references)) := by
  obtain ⟨tree, htree⟩ :=
    exists_ofPlaced ((placed.map (·.path.length)).foldl max 0) hspellable []
  unfold moduleTree
  exact ⟨tree, bind_eq_ok.2 ⟨placed, h, bind_eq_ok.2 ⟨tree, htree, rfl⟩⟩⟩

/-- Items that can be spelled make a file, at a root that fits their references. -/
theorem exists_file {c : Compilation} {units : List MapUnit} {options : EmitOptions} {root : Path}
    {placed : List Placed} (hroot : Path.ofText? options.sourceRoot = some root)
    (h : placedItems ⟨c, root⟩ units = .ok placed) (hspellable : Spellable placed)
    (houter : options.outerModule = "" ∨ (identifier? options.outerModule).isSome = true)
    (hfits : rootFits root (placed.flatMap (·.item.references)) = true) :
    ∃ text, file c units options = .ok text := by
  obtain ⟨tree, htree⟩ := exists_moduleTree h hspellable
  have hcode : ∃ emitted, code c units options = .ok emitted := by
    unfold code
    rw [hroot]
    by_cases hnone : options.outerModule = ""
    · refine ⟨tree.code root, bind_eq_ok.2 ⟨_, htree, ?_⟩⟩
      simp only [if_pos hnone]
      exact bind_eq_ok.2 ⟨_, rfl, if_pos hfits⟩
    · obtain ⟨w, hw⟩ := Option.isSome_iff_exists.1 (houter.resolve_left hnone)
      refine ⟨wrapped w (tree.code root), bind_eq_ok.2 ⟨_, htree, ?_⟩⟩
      simp only [if_neg hnone]
      exact bind_eq_ok.2 ⟨_, map_eq_ok.2 ⟨w, identifier_eq_ok.2 hw, rfl⟩, if_pos hfits⟩
  obtain ⟨emitted, hemitted⟩ := hcode
  exact ⟨_, map_eq_ok.2 ⟨emitted, hemitted, rfl⟩⟩

/-- Items can be made and spelled if a check says so. -/
theorem exists_placed {s : Surroundings} {units : List MapUnit}
    (h : (placedItems s units).toOption.any (fun placed => decide (Spellable placed ∧
      rootFits s.root (placed.flatMap (·.item.references)) = true)) = true) :
    ∃ placed, placedItems s units = .ok placed ∧ Spellable placed ∧
      rootFits s.root (placed.flatMap (·.item.references)) = true := by
  cases hplaced : placedItems s units with
  | error e =>
    rw [hplaced] at h
    cases h
  | ok placed =>
    rw [hplaced] at h
    exact ⟨placed, rfl, of_decide_eq_true h⟩

/-- A file with code is that of a tree. -/
theorem file_eq_ok {c : Compilation} {units : List MapUnit} {options : EmitOptions} {text : String}
    (h : file c units options = .ok text) :
    ∃ root tree, Path.ofText? options.sourceRoot = some root ∧
      (∃ references, moduleTree ⟨c, root⟩ units = .ok (tree, references)) ∧
      ∃ before after, text = header ++ render (before ++ tree.code root ++ after) := by
  unfold file at h
  obtain ⟨emitted, hcode, rfl⟩ := map_eq_ok.1 h
  unfold code at hcode
  split at hcode
  · next root hroot =>
    obtain ⟨⟨tree, references⟩, htree, hcode⟩ := bind_eq_ok.1 hcode
    refine ⟨root, tree, hroot, ⟨references, htree⟩, ?_⟩
    dsimp only at hcode
    split at hcode
    · obtain ⟨inner, hinner, hcode⟩ := bind_eq_ok.1 hcode
      cases hinner
      split at hcode
      · cases hcode
        exact ⟨[], [], by simp⟩
      · cases hcode
    · obtain ⟨outer, houter, hcode⟩ := bind_eq_ok.1 hcode
      obtain ⟨word, -, rfl⟩ := map_eq_ok.1 houter
      split at hcode
      · cases hcode
        exact ⟨[.symbol "pub", .symbol "mod", .symbol word, .symbol "\x7b"], [.symbol "\x7d"],
          by simp [wrapped, braces]⟩
      · cases hcode
  · cases hcode

end Emission

/-! ### Passes -/

/-- What a pass with code emits. -/
structure Emits (inputs : List Input) (compiled : List CompiledType) (options : EmitOptions)
    (s : Surroundings) (units : List MapUnit) (tree : ModuleTree) (text : String) : Prop where
  sources : ∃ files, readSources inputs = .ok files ∧
    s.compilation = Compilation.ofSources files compiled
  clean : (s.compilation.problems ++ s.compilation.discover.notes).any (·.problem.isError) = false
  mapped : units = (s.compilation.units s.compilation.discover.value).value
  root : Path.ofText? options.sourceRoot = some s.root
  grouped : ∃ references, Emission.moduleTree s units = .ok (tree, references)
  text : ∃ before after, text = Emission.header ++ render (before ++ tree.code s.root ++ after)

/-- A pass with code read its sources, found no error in them, and emitted its mappings. -/
theorem passed_of_code {inputs : List Input} {compiled : List CompiledType} {options : EmitOptions}
    {result : PassResult} {text : String} (h : compile inputs compiled options = .ok result)
    (hcode : result.code = some text) : ∃ files, readSources inputs = .ok files ∧
      let c := Compilation.ofSources files compiled
      result.problems = c.problems ++ c.discover.notes ∧
        result.problems.any (·.problem.isError) = false ∧
        result.units = (c.units c.discover.value).value ∧
        Emission.file c result.units options = .ok text := by
  unfold compile at h
  cases hread : readSources inputs with
  | error problems =>
    rw [hread] at h
    cases h
    cases hcode
  | ok files =>
    rw [hread] at h
    unfold compileSources at h
    dsimp only at h
    split at h
    · cases h
      cases hcode
    · next hclean =>
      obtain ⟨code, hpass, h⟩ := bind_eq_ok.1 h
      cases h
      obtain ⟨file, hfile, rfl⟩ := map_eq_ok.1 hpass
      cases hcode
      exact ⟨files, rfl, rfl, Bool.eq_false_iff.2 hclean, rfl, hfile⟩

theorem emits_of_compile {inputs : List Input} {compiled : List CompiledType} {options : EmitOptions}
    {result : PassResult} {text : String} (h : compile inputs compiled options = .ok result)
    (hcode : result.code = some text) :
    ∃ s tree, Emits inputs compiled options s result.units tree text := by
  obtain ⟨files, hread, hproblems, hclean, hunits, hfile⟩ := passed_of_code h hcode
  obtain ⟨root, tree, hroot, htree, htext⟩ := Emission.file_eq_ok hfile
  exact ⟨⟨_, root⟩, tree, ⟨files, hread, rfl⟩, hproblems ▸ hclean, hunits, hroot, htree, htext⟩

/-- The modules of an emitted tree are those of the classes and mappings of the pass. -/
theorem Emits.modules {inputs : List Input} {compiled : List CompiledType} {options : EmitOptions}
    {s : Surroundings} {units : List MapUnit} {tree : ModuleTree} {text : String}
    (h : Emits inputs compiled options s units tree text) :
    (∀ m ∈ tree.modules, ∃ path, Emission.Module s units path m) ∧
      ∀ path ∈ Emission.itemPaths s.compilation units,
        ∃ m ∈ tree.modules, Emission.Module s units path m := by
  obtain ⟨references, hgrouped⟩ := h.grouped
  exact Emission.moduleTree_modules hgrouped

/-- A pass without errors whose items can be made and spelled has code. -/
theorem exists_compile {inputs : List Input} {files : List SourceFile} {compiled : List CompiledType}
    {options : EmitOptions} {root : Path} {units : List MapUnit} {placed : List Placed}
    {c : Compilation} (hread : readSources inputs = .ok files)
    (hc : Compilation.ofSources files compiled = c)
    (hclean : (c.problems ++ c.discover.notes).any (·.problem.isError) = false)
    (hunits : (c.units c.discover.value).value = units)
    (hroot : Path.ofText? options.sourceRoot = some root)
    (hplaced : Emission.placedItems ⟨c, root⟩ units = .ok placed)
    (hspellable : ModuleTree.Spellable placed)
    (houter : options.outerModule = "" ∨ (identifier? options.outerModule).isSome = true)
    (hfits : Emission.rootFits root (placed.flatMap (·.item.references)) = true) :
    ∃ result text, compile inputs compiled options = .ok result ∧ result.code = some text ∧
      result.units = units := by
  obtain ⟨text, htext⟩ := Emission.exists_file hroot hplaced hspellable houter hfits
  refine ⟨⟨inputs, c.problems ++ c.discover.notes, (c.units c.discover.value).notes, units,
    some text⟩, text, ?_, rfl, rfl⟩
  unfold compile
  rw [hread]
  unfold compileSources
  dsimp only
  rw [hc, hunits, if_neg (Bool.eq_false_iff.1 hclean), htext]
  rfl

/-! ### A pass -/

namespace Sample

/-- A class that is mapped from two compiled types of its own short name. -/
def twins : List Input :=
  [⟨"twins", "namespace m\n@map_from(a::U)\n@map_from(b::U)\nclass U:\n pass\n"⟩]

def twinType (ns : String) : CompiledType := ⟨"U", ns, [], [], []⟩

def twinDecorator (start : Nat) (ns : String) : Source.Decorator :=
  ⟨⟨start, start + 15⟩, "map_from", [.named ⟨start + 10, start + 14⟩ [ns, "U"]]⟩

def twinClass : Source.Class :=
  ⟨⟨12, 59⟩, [twinDecorator 12 "a", twinDecorator 28 "b"], "U", [], [], []⟩

def twinFile : SourceFile :=
  ⟨"twins", "namespace m\n@map_from(a::U)\n@map_from(b::U)\nclass U:\n pass\n",
    ⟨[.space ⟨0, 11⟩ ["m"], .cls twinClass]⟩⟩

def twinTarget : Descriptor := ⟨⟨"m", "U"⟩, [], [], [], some ⟨0, ⟨12, 59⟩⟩⟩

def twinPass : Compilation where
  files := [twinFile]
  origins := [("m::U", .declared 0 "m" twinClass), ("a::U", .compiled (twinType "a")),
    ("b::U", .compiled (twinType "b"))]
  types := [("a::U", .ofCompiled (twinType "a")), ("b::U", .ofCompiled (twinType "b")),
    ("m::U", twinTarget)]
  problems := []

def twinUnit (ns : String) : MapUnit where
  mapping := ⟨.mk ns "U" [], .mk "m" "U" [], ⟨0, ⟨12, 59⟩⟩, [], []⟩
  plan := ⟨ns ++ "::U", "m::U", ⟨"x", .init "m::U" []⟩, []⟩

def crate : Path := ⟨false, [⟨"crate", none⟩]⟩

def isCrate : Option Path → Bool
  | some ⟨false, [⟨"crate", none⟩]⟩ => true
  | _ => false

theorem crate_read : Path.ofText? EmitOptions.default.sourceRoot = some crate := by
  have h : isCrate (Path.ofText? EmitOptions.default.sourceRoot) = true := by decide +kernel
  unfold isCrate at h
  split at h
  · assumption
  · cases h

theorem twins_read : readSources twins = .ok [twinFile] :=
  readSources_single rfl (by rw [Source.Module.parse, lex, String.toList_ofList]; cbv)

theorem twins_pass : Compilation.ofSources [twinFile] [twinType "a", twinType "b"] = twinPass := by
  cbv

theorem twins_types : Emission.declaredTypes twinPass = [twinTarget] := by cbv

theorem twins_sorted : ([twinUnit "a", twinUnit "b"].mergeSort Emission.unitLe).filter
    Emission.isEmitted = [twinUnit "a", twinUnit "b"] := by cbv

theorem twins_placed : ∃ placed,
    Emission.placedItems ⟨twinPass, crate⟩ [twinUnit "a", twinUnit "b"] = .ok placed ∧
      ModuleTree.Spellable placed ∧
      Emission.rootFits crate (placed.flatMap (·.item.references)) = true := by
  refine Emission.exists_placed ?_
  unfold Emission.placedItems
  rw [twins_types, twins_sorted]
  decide +kernel

/-- The pass has code. -/
theorem twins_compile : ∃ result text,
    compile twins [twinType "a", twinType "b"] .default = .ok result ∧
      result.code = some text ∧ result.units = [twinUnit "a", twinUnit "b"] := by
  obtain ⟨placed, hplaced, hspellable, hfits⟩ := twins_placed
  exact exists_compile twins_read twins_pass rfl rfl crate_read hplaced hspellable
    (.inr (by decide +kernel)) hfits

/-- The class and both of its mappings are emitted into one module. -/
theorem twins_module : ∃ result text s tree m,
    compile twins [twinType "a", twinType "b"] .default = .ok result ∧
      result.code = some text ∧ result.units = [twinUnit "a", twinUnit "b"] ∧
      Emits twins [twinType "a", twinType "b"] .default s result.units tree text ∧
      m ∈ tree.modules ∧ Emission.Module s result.units ["m"] m ∧
      Emission.mappersAt result.units ["m"] = [twinUnit "a", twinUnit "b"] := by
  obtain ⟨result, text, h, hcode, hunits⟩ := twins_compile
  obtain ⟨s, tree, hemits⟩ := emits_of_compile h hcode
  obtain ⟨files, hread, hc⟩ := hemits.sources
  cases twins_read.symm.trans hread
  have hpath : ["m"] ∈ Emission.itemPaths s.compilation result.units := by
    rw [Emission.itemPaths, hc, twins_pass, twins_types]
    exact List.mem_cons_self
  obtain ⟨m, hm, hmodule⟩ := hemits.modules.2 _ hpath
  refine ⟨result, text, s, tree, m, h, hcode, hunits, hemits, hm, hmodule, ?_⟩
  rw [hunits, Emission.mappersAt, twins_sorted]
  rfl

end Sample
end StagedMapping
