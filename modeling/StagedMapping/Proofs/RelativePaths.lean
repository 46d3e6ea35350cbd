import StagedMapping.Proofs.ItemNames
import StagedMapping.Proofs.ResolvedTypes
import StagedMapping.Proofs.TypeSpelling

/-! Relative paths in generated modules. A path is followed from the module that it stands in:
`self` stays there, `super` leads to the module around, and any other word to the module of that
name inside (`Place.follow`). The modules of the emitted tree are reached from its root by the
segments of their namespaces (`Emits.reached`). For a type of another namespace of the tree, a
module prints a path that leads to the module of that namespace, and the structure of the type
stands there (`paths_resolve`). -/
namespace StagedMapping
open Generated

/-! ### Following paths -/

namespace Generated

namespace ModuleTree

def uses : ModuleTree → List Use
  | node uses _ _ => uses

def children : ModuleTree → List (String × ModuleTree)
  | node _ _ children => children

end ModuleTree

/-- A module in a tree, with those around it from the inside out. -/
structure Place where
  focus : ModuleTree
  around : List ModuleTree

namespace Place

/-- Where a word of a path leads. -/
def step (p : Place) (word : String) : Option Place :=
  if word = "self" then some p
  else if word = "super" then
    match p.around with
    | [] => none
    | outer :: rest => some ⟨outer, rest⟩
  else (Bindings.get? p.focus.children word).map fun inner => ⟨inner, p.focus :: p.around⟩

def follow (p : Place) (words : List String) : Option Place := words.foldlM step p

/-- The module inside for a segment of a namespace. -/
def enter (p : Place) (name : String) : Option Place := (identifier? name).bind p.step

end Place

/-- The place of the module of a namespace. -/
def ModuleTree.place? (tree : ModuleTree) (path : List String) : Option Place :=
  path.foldlM Place.enter ⟨tree, []⟩

namespace Place

theorem follow_append (p : Place) (a b : List String) :
    p.follow (a ++ b) = (p.follow a).bind (·.follow b) := List.foldlM_append

theorem follow_wordsUp (p : Place) (n : Nat) :
    p.follow (wordsUp n) = p.follow (List.replicate n "super") := by
  unfold wordsUp
  split
  · next h =>
    rw [h]
    rfl
  · rfl

theorem foldlM_enter {names words : List String} (h : words.map some = names.map identifier?)
    (p : Place) : names.foldlM enter p = p.follow words := by
  induction names generalizing words p with
  | nil =>
    rw [List.map_eq_nil_iff.1 h]
    rfl
  | cons name rest ih =>
    obtain ⟨word, more, rfl, hword, hmore⟩ := List.map_eq_cons_iff.1 h
    have henter : p.enter name = p.step word := by rw [enter, ← hword, Option.bind_some]
    rw [List.foldlM_cons, henter]
    show _ = (p.step word).bind fun q => q.follow more
    cases p.step word with
    | none => rfl
    | some q => exact ih hmore q

theorem step_child {p : Place} {word : String} (hself : word ≠ "self") (hsuper : word ≠ "super") :
    p.step word =
      (Bindings.get? p.focus.children word).map fun inner => ⟨inner, p.focus :: p.around⟩ :=
  (if_neg hself).trans (if_neg hsuper)

end Place

theorem ModuleTree.place?_concat (tree : ModuleTree) (path : List String) (name : String) :
    tree.place? (path ++ [name]) = (tree.place? path).bind (·.enter name) := by
  rw [place?, List.foldlM_append]
  show (tree.place? path).bind _ = _
  congr 1
  funext p
  show (p.enter name).bind some = _
  exact Option.bind_fun_some _

/-- The words that lead around are not identifiers of names. -/
theorem identifier?_ne {name w : String} (h : Name.IsPath name) (hw : identifier? name = some w) :
    w ≠ "self" ∧ w ≠ "super" := by
  have hreserved : identifier? "self" = none ∧ identifier? "super" = none := by decide +kernel
  have hraw : ∀ word ∈ ["self", "super"], word ≠ "r#" ++ name := fun word hword he => by
    have hmem : '#' ∈ word.toList := by rw [he]; simp
    have hplain : ∀ word ∈ ["self", "super"], '#' ∉ word.toList := by decide
    exact hplain word hword hmem
  rcases identifier?_path h hw with rfl | rfl
  · constructor <;> rintro rfl
    · cases hreserved.1.symm.trans hw
    · cases hreserved.2.symm.trans hw
  · exact ⟨(hraw "self" (by simp)).symm, (hraw "super" (by simp)).symm⟩

/-! ### Places of modules -/

namespace ModuleTree

theorem self_mem_modules (tree : ModuleTree) : tree ∈ tree.modules := by
  cases tree
  rw [modules]
  exact List.mem_cons_self

mutual

theorem mem_modules_trans {m n : ModuleTree} (hn : n ∈ m.modules) :
    {tree : ModuleTree} → m ∈ tree.modules → n ∈ tree.modules
  | node uses items children, hm => by
    rw [modules] at hm ⊢
    rcases List.mem_cons.1 hm with rfl | hm
    · rwa [modules] at hn
    · exact List.mem_cons_of_mem _ (mem_modulesOf_trans hn hm)

theorem mem_modulesOf_trans {m n : ModuleTree} (hn : n ∈ m.modules) :
    {children : List (String × ModuleTree)} → m ∈ modulesOf children → n ∈ modulesOf children
  | (_, t) :: rest, hm => by
    rw [modulesOf] at hm ⊢
    exact (List.mem_append.1 hm).elim (fun hm => List.mem_append_left _ (mem_modules_trans hn hm))
      fun hm => List.mem_append_right _ (mem_modulesOf_trans hn hm)

end

/-- A module that is made of what is under a path stands at that path, as many modules below the
root as the path has segments. -/
structure Reached (tree : ModuleTree) (placed : List Placed) (path : List String) (levels : Nat)
    (p : Place) : Prop where
  made : ofPlaced path levels (under path placed) = .ok p.focus
  levels_le : ∀ q ∈ placed, q.path.length ≤ path.length + levels
  place : tree.place? path = some p
  up : p.follow (List.replicate path.length "super") = some ⟨tree, []⟩
  mem : p.focus ∈ tree.modules

namespace Reached
variable {tree : ModuleTree} {placed : List Placed} {path : List String} {levels : Nat} {p : Place}

theorem root (h : ofPlaced [] levels placed = .ok tree)
    (hlevels : ∀ q ∈ placed, q.path.length ≤ levels) :
    Reached tree placed [] levels ⟨tree, []⟩ where
  made := h
  levels_le q hq := by
    rw [List.length_nil, Nat.zero_add]
    exact hlevels q hq
  place := rfl
  up := rfl
  mem := tree.self_mem_modules

theorem up_wordsUp (h : Reached tree placed path levels p) :
    p.follow (wordsUp path.length) = some ⟨tree, []⟩ :=
  (p.follow_wordsUp _).trans h.up

variable (hpath : ∀ q ∈ placed, ∀ name ∈ q.path, Name.IsPath name)
include hpath

theorem isPath_childName {name : String} (hname : name ∈ childNames (under path placed)) :
    Name.IsPath name := by
  obtain ⟨rest, item, hp⟩ := mem_childNames.1 hname
  exact hpath _ (mem_under.1 hp) name (by simp)

/-- The modules inside have different names, so that each is found by its own. -/
theorem get?_child (h : Reached tree placed path levels p) {t : String × ModuleTree}
    (ht : t ∈ p.focus.children) : Bindings.get? p.focus.children t.1 = some t.2 := by
  have hwords := (ofPlaced_holds h.made h.levels_le).children
  have hnodup := (nodup_identifiers hwords fun _ => isPath_childName hpath).2 (childNames_nodup _)
  refine Bindings.get?_of_mem ?_ ht
  cases hfocus : p.focus
  rwa [hfocus] at hnodup

/-- A module inside stands one segment further. -/
theorem child (h : Reached tree placed path (levels + 1) p) {t : String × ModuleTree}
    (ht : t ∈ p.focus.children) {name : String} (hname : name ∈ childNames (under path placed))
    (hword : identifier? name = some t.1)
    (hmade : ofPlaced (path ++ [name]) levels (inside name (under path placed)) = .ok t.2) :
    Reached tree placed (path ++ [name]) levels ⟨t.2, p.focus :: p.around⟩ where
  made := (under_concat path name placed).symm ▸ hmade
  levels_le := levels_inside name h.levels_le
  place := by
    obtain ⟨hself, hsuper⟩ := identifier?_ne (isPath_childName hpath hname) hword
    have hstep : p.step t.1 = some ⟨t.2, p.focus :: p.around⟩ := by
      rw [Place.step_child hself hsuper, h.get?_child hpath ht, Option.map_some]
    have henter : p.enter name = some ⟨t.2, p.focus :: p.around⟩ := by
      rw [Place.enter, hword, Option.bind_some, hstep]
    rw [place?_concat, h.place, Option.bind_some, henter]
  up := by
    -- the first word leads back to the place before
    rw [List.length_append, List.length_singleton]
    exact h.up
  mem := by
    refine mem_modules_trans ?_ h.mem
    cases hfocus : p.focus with
    | node uses items children =>
      rw [hfocus] at ht
      rw [modules]
      exact List.mem_cons_of_mem _ (mem_modulesOf.2 ⟨t, ht, t.2.self_mem_modules⟩)

/-- Every module inside has its place. -/
theorem of_modules (h : Reached tree placed path levels p) : ∀ m ∈ p.focus.modules,
    ∃ path levels p, Reached tree placed path levels p ∧ p.focus = m := by
  induction levels generalizing path p with
  | zero =>
    intro m hm
    obtain ⟨uses, hfocus, -⟩ := ofPlaced_zero_eq_ok h.made
    refine ⟨path, 0, p, h, ?_⟩
    rw [hfocus, modules, modulesOf, List.mem_singleton] at hm
    rw [hm, hfocus]
  | succ levels ih =>
    intro m hm
    obtain ⟨uses, children, hfocus, -, -, hchildren, -⟩ := ofPlaced_succ_eq_ok h.made
    rw [hfocus, modules, List.mem_cons, ← hfocus, mem_modulesOf] at hm
    rcases hm with rfl | ⟨t, ht, hm⟩
    · exact ⟨path, levels + 1, p, h, rfl⟩
    · obtain ⟨name, hname, hword, hmade⟩ := hchildren t ht
      have ht : t ∈ p.focus.children := by rwa [hfocus]
      exact ih (h.child hpath ht hname hword hmade) m hm

/-- Everything that is placed has its place. -/
theorem of_under (h : Reached tree placed path levels p) {rest : List String} {item : Item}
    (hitem : ⟨rest, item⟩ ∈ under path placed) :
    ∃ levels q, Reached tree placed (path ++ rest) levels q := by
  induction rest generalizing levels path p with
  | nil =>
    rw [List.append_nil]
    exact ⟨levels, p, h⟩
  | cons name rest ih =>
    have hname : name ∈ childNames (under path placed) := mem_childNames.2 ⟨rest, item, hitem⟩
    cases levels with
    | zero =>
      rw [childNames_eq_nil h.levels_le] at hname
      cases hname
    | succ levels =>
      obtain ⟨uses, children, hfocus, -, -, -, hchildren⟩ := ofPlaced_succ_eq_ok h.made
      obtain ⟨t, ht, hword, hmade⟩ := hchildren name hname
      have ht : t ∈ p.focus.children := by rwa [hfocus]
      rw [List.append_cons]
      exact ih (h.child hpath ht hname hword hmade)
        (under_concat path name placed ▸ mem_inside.2 hitem)

end Reached

/-! ### Imports -/

/-- A module imports what its items refer to. -/
theorem Reached.uses_eq {tree : ModuleTree} {placed : List Placed} {path : List String}
    {levels : Nat} {p : Place} (h : Reached tree placed path levels p) :
    (importedSpaces (Name.joinPath path) (p.focus.items.flatMap (·.references))).mapM
      (useOf path) = .ok p.focus.uses := by
  cases levels with
  | zero =>
    obtain ⟨uses, hfocus, huses⟩ := ofPlaced_zero_eq_ok h.made
    rwa [hfocus]
  | succ levels =>
    obtain ⟨uses, children, hfocus, huses, -⟩ := ofPlaced_succ_eq_ok h.made
    rwa [hfocus]

theorem useOf_generated {path : List String} {r : Reference} {use : Use}
    (h : useOf path r = .ok use) (hhome : r.home = .generated) :
    ∃ segments : List String, segments.map some = (Name.segments r.ns).map identifier? ∧
      use = .relative (wordsUp path.length ++ segments) := by
  obtain ⟨segments, hsegments, h⟩ := bind_eq_ok.1 h
  rw [hhome] at h
  cases h
  exact ⟨segments, map_eq_of_mapM_eq_ok hsegments fun name _ word hword =>
    (identifier_eq_ok.1 hword).symm, rfl⟩

theorem home_of_relative {path : List String} {r : Reference} {words : List String}
    (h : useOf path r = .ok (.relative words)) : r.home = .generated := by
  obtain ⟨segments, -, h⟩ := bind_eq_ok.1 h
  cases hhome : r.home with
  | generated => rfl
  | compiled =>
    rw [hhome] at h
    cases h

theorem code_eq (root : Path) (m : ModuleTree) : m.code root =
    m.uses.flatMap (·.code root) ++ m.items.flatMap (·.code) ++ childrenCode root m.children := by
  cases m
  rw [code]
  rfl

end ModuleTree

/-! ### References -/

namespace Surroundings
variable (s : Surroundings)

/-- The namespace that a spelled type refers to. -/
def reference (r : TypeRef) : Reference := ⟨s.home r, r.ns⟩

mutual

/-- The spelling of a type refers to the namespaces of what it spells. -/
theorem references_eq (generics : List String) :
    (t : TypeRef) → s.references generics t = (t.spelled generics).map s.reference
  | .mk ns name args => by
    rw [references, TypeRef.spelled]
    cases hbuiltin : (TypeRef.mk ns name []).builtin? with
    | some b =>
      cases b with
      | list | option => exact firstReferences_eq generics args
      | _ => rfl
    | none =>
      dsimp only
      by_cases hparam : ns = "" ∧ generics.contains name = true
      · rw [if_pos hparam, if_pos hparam]
        rfl
      · rw [if_neg hparam, if_neg hparam, List.map_cons, argReferences_eq generics args]
        rfl

theorem argReferences_eq (generics : List String) : (ts : List TypeRef) →
    s.argReferences generics ts = (TypeRef.argsSpelled generics ts).map s.reference
  | [] => by
    rw [argReferences, TypeRef.argsSpelled]
    rfl
  | t :: rest => by
    rw [argReferences, TypeRef.argsSpelled, List.map_append, references_eq generics t,
      argReferences_eq generics rest]

theorem firstReferences_eq (generics : List String) : (ts : List TypeRef) →
    s.firstReferences generics ts = (TypeRef.firstSpelled generics ts).map s.reference
  | [] => by
    rw [firstReferences, TypeRef.firstSpelled]
    rfl
  | t :: rest => by
    rw [firstReferences, TypeRef.firstSpelled]
    exact references_eq generics t

end

end Surroundings
end Generated

namespace Emission
open Generated.ModuleTree

theorem classItem_references {s : Surroundings} {d : Descriptor} {item : Generated.Item}
    (h : classItem s d = .ok item) : item.references =
      (d.properties.flatMap (·.type.spelled d.typeParams)).map s.reference := by
  obtain ⟨fields, -, -, href, -⟩ := classItem_eq_ok h
  rw [href, List.map_flatMap]
  exact List.flatMap_congr fun p _ => s.references_eq d.typeParams p.type

theorem mapperItem_references {s : Surroundings} {u : MapUnit} {shared : Bool}
    {item : Generated.Item} (h : mapperItem s u shared = .ok item) : item.references =
      ((u.source :: u.target :: (emittedFactories u).flatMap fun f =>
        f.2.parameters.map (·.type)).flatMap (·.spelled [])).map s.reference := by
  obtain ⟨source, target, plan, base, factories, -, -, -, -, href, -⟩ := mapperItem_eq_ok h
  rw [href, List.map_flatMap, List.flatMap_cons, List.flatMap_cons, List.flatMap_assoc,
    ← List.append_assoc, ← s.references_eq, ← s.references_eq]
  refine congrArg (_ ++ ·) (List.flatMap_congr fun f _ => ?_)
  rw [List.flatMap_map]
  exact List.flatMap_congr fun p _ => s.references_eq [] p.type

/-- The items of a module refer to the namespaces of the types that the module spells. -/
theorem Module.references_eq {s : Surroundings} {units : List MapUnit} {path : List String}
    {m : ModuleTree} (h : Module s units path m) : m.items.flatMap (·.references) =
      (spelledAt s.compilation units path).map s.reference := by
  obtain ⟨structs, containers, hitems, hstructs, hcontainers⟩ := h.items
  have hclasses := map_eq_of_mapM_eq_ok hstructs fun d _ item hitem => classItem_references hitem
  have hmappers :=
    map_eq_of_mapM_eq_ok hcontainers fun u _ item hitem => mapperItem_references hitem
  rw [hitems, List.flatMap_append, List.flatMap_def, List.flatMap_def, hclasses, hmappers,
    spelledAt, List.map_append, List.map_flatMap, List.map_flatMap, List.flatMap_def,
    List.flatMap_def]

/-- A module at a path prints the words of a path for a type: in an import of everything there,
or before the word of the type. -/
inductive PrintsPath (s : Surroundings) (path : List String) (m : ModuleTree) (r : TypeRef)
    (word : String) : List String → Prop where
  | imported {words : List String} (hns : r.ns ≠ "") (huse : .relative words ∈ m.uses)
    (huseCode : (Use.relative words).code s.root <:+: m.code s.root)
    (hname : s.path? path.length r = some [.symbol word])
    (hnameCode : [.symbol word] <:+: m.code s.root) : PrintsPath s path m r word words
  | before {words : List String} (hns : r.ns = "")
    (hname : s.path? path.length r = some (joined (words ++ [word])))
    (hnameCode : joined (words ++ [word]) <:+: m.code s.root) : PrintsPath s path m r word words

section
variable {s : Surroundings} {units : List MapUnit} {path : List String} {m : ModuleTree}
  (hmodule : Module s units path m)
  (huses : (importedSpaces (Name.joinPath path) (m.items.flatMap (·.references))).mapM
    (useOf path) = .ok m.uses)
include hmodule

/-- The path of a spelled type stands in the code of the module. -/
theorem Module.spells_code {r : TypeRef} (hr : r ∈ spelledAt s.compilation units path) :
    ∃ word, identifier? r.name = some word ∧
      s.path? path.length r = some (s.named path.length r word) ∧
      s.named path.length r word <:+: m.code s.root := by
  obtain ⟨code, hpath, hinfix⟩ := hmodule.spells r hr
  obtain ⟨word, hword, rfl⟩ := Option.map_eq_some_iff.1 hpath
  refine ⟨word, hword, hpath, hinfix.trans ?_⟩
  rw [code_eq]
  exact ((List.suffix_append ..).isInfix).trans (List.prefix_append ..).isInfix

include huses

/-- For a spelled type of another namespace of the tree, a module prints the words to the root of
the tree and the segments of the namespace. -/
theorem Module.prints {r : TypeRef} (hr : r ∈ spelledAt s.compilation units path)
    (hhome : s.home r = .generated) (hns : r.ns ≠ Name.joinPath path) :
    ∃ word segments, identifier? r.name = some word ∧
      segments.map some = (Name.segments r.ns).map identifier? ∧
      PrintsPath s path m r word (wordsUp path.length ++ segments) := by
  obtain ⟨word, hword, hname, hnameCode⟩ := hmodule.spells_code hr
  by_cases hroot : r.ns = ""
  · have hdepth : path.length > 0 :=
      List.length_pos_of_ne_nil fun he => hns (by rw [hroot, he]; rfl)
    have hnamed : s.named path.length r word = joined (wordsUp path.length ++ [word]) := by
      unfold Surroundings.named
      rw [hhome]
      exact if_pos ⟨hroot, hdepth⟩
    rw [hnamed] at hname hnameCode
    refine ⟨word, [], hword, by rw [hroot]; rfl, ?_⟩
    rw [List.append_nil]
    exact .before hroot hname hnameCode
  · have hbare : s.isBare path.length r = true := by simp [Surroundings.isBare, hroot]
    rw [Surroundings.named_of_isBare hbare] at hname hnameCode
    have himported : s.reference r ∈
        importedSpaces (Name.joinPath path) (m.items.flatMap (·.references)) := by
      rw [mem_importedSpaces, hmodule.references_eq]
      refine ⟨List.mem_map_of_mem hr, ?_⟩
      simp [Reference.isImported, Surroundings.reference, hroot, hhome, hns]
    obtain ⟨use, huse, hmade⟩ := exists_mem_of_mapM_eq_ok huses himported
    obtain ⟨segments, hsegments, rfl⟩ := useOf_generated hmade hhome
    refine ⟨word, segments, hword, hsegments, .imported hroot huse ?_ hname hnameCode⟩
    rw [code_eq]
    exact (infix_flatMap (f := Use.code s.root) huse).trans
      ((List.prefix_append ..).trans (List.prefix_append ..)).isInfix

/-- A relative import is that of the namespace of a type that the module spells. -/
theorem Module.imported {words : List String} (h : .relative words ∈ m.uses) :
    ∃ r ∈ spelledAt s.compilation units path, s.home r = .generated ∧ r.ns ≠ Name.joinPath path ∧
      ∃ segments : List String, segments.map some = (Name.segments r.ns).map identifier? ∧
        words = wordsUp path.length ++ segments := by
  obtain ⟨reference, hreference, hmade⟩ := exists_of_mapM_eq_ok huses h
  rw [mem_importedSpaces, hmodule.references_eq] at hreference
  obtain ⟨hspelled, himported⟩ := hreference
  obtain ⟨r, hr, rfl⟩ := List.mem_map.1 hspelled
  have hhome : s.home r = .generated := home_of_relative hmade
  obtain ⟨segments, hsegments, he⟩ := useOf_generated hmade hhome
  refine ⟨r, hr, hhome, fun hns => ?_, segments, hsegments, Use.relative.inj he⟩
  simp [Reference.isImported, Surroundings.reference, hhome, hns] at himported

end

/-- The relative paths that a module prints lead from its place to where they say. For each class
of another namespace that it spells there is one to the module of the namespace, in which the
structure of the class stands under the name that is printed; and it imports no other modules. -/
structure Resolves (s : Surroundings) (units : List MapUnit) (tree : ModuleTree)
    (path : List String) (p : Place) : Prop where
  place : tree.place? path = some p
  mem : p.focus ∈ tree.modules
  made : Module s units path p.focus
  classes : ∀ r ∈ spelledAt s.compilation units path, ∀ d ∈ declaredTypes s.compilation,
    d.key = r.key → r.ns ≠ Name.joinPath path →
    ∃ word words q, PrintsPath s path p.focus r word words ∧ p.follow words = some q ∧
      tree.place? (Name.segments r.ns) = some q ∧ q.focus ∈ tree.modules ∧
      Module s units (Name.segments r.ns) q.focus ∧
      ∃ item ∈ q.focus.items, classItem s d = .ok item ∧ item.name = word
  imports : ∀ words, .relative words ∈ p.focus.uses →
    ∃ r ∈ spelledAt s.compilation units path, ∃ d ∈ declaredTypes s.compilation,
      d.key = r.key ∧ r.ns ≠ Name.joinPath path ∧
      ∃ q, p.follow words = some q ∧ tree.place? (Name.segments r.ns) = some q

end Emission

/-! ### Paths of a pass -/

namespace Emits
open Emission Generated.ModuleTree
variable {inputs : List Input} {compiled : List CompiledType} {options : EmitOptions}
  {s : Surroundings} {units : List MapUnit} {tree : ModuleTree} {text : String}
  (h : Emits inputs compiled options s units tree text)
include h

/-- The modules of an emitted tree have their places, among them those of all classes. -/
theorem reached : ∃ placed, placedItems s units = .ok placed ∧
    (∀ m ∈ tree.modules, ∃ path levels p, Reached tree placed path levels p ∧ p.focus = m) ∧
    ∀ d ∈ declaredTypes s.compilation, ∃ levels p,
      Reached tree placed (Name.segments d.key.ns) levels p := by
  obtain ⟨references, hgrouped⟩ := h.grouped
  obtain ⟨placed, levels, hplaced, hmade, hlevels⟩ := moduleTree_eq_ok hgrouped
  have hpaths := placedItems_paths hplaced
  have hpath : ∀ q ∈ placed, ∀ name ∈ q.path, Name.IsPath name := by
    intro q hq name hname
    obtain ⟨before, after, hsplit⟩ := List.append_of_mem hname
    exact h.isPath_segment (hsplit ▸ hpaths ▸ List.mem_map_of_mem hq)
  have hroot := Reached.root hmade hlevels
  refine ⟨placed, hplaced, hroot.of_modules hpath, fun d hd => ?_⟩
  have hmem : Name.segments d.key.ns ∈ placed.map (·.path) := by
    rw [hpaths]
    exact h.mem_itemPaths.2 ⟨d, hd, rfl⟩
  obtain ⟨⟨path, item⟩, hitem, hd⟩ := List.mem_map.1 hmem
  rw [← hd]
  exact hroot.of_under hpath hitem

/-- Classes live in the generated tree. -/
theorem home_of_declared {d : Descriptor} (hd : d ∈ declaredTypes s.compilation) {r : TypeRef}
    (hkey : d.key = r.key) : s.home r = .generated := by
  obtain ⟨files, -, hc⟩ := h.sources
  obtain ⟨hmem, hdeclared⟩ := List.mem_filter.1 (List.mem_mergeSort.1 hd)
  have hqualified : ∀ t ∈ s.compilation.types, t.2.qualified = t.1 :=
    hc ▸ Compilation.types_qualified
  have hnodup : (Bindings.names s.compilation.types).Nodup := by
    have hnames := Compilation.types_nodup files compiled
    rwa [← hc, List.map_congr_left hqualified] at hnames
  obtain ⟨⟨name, d⟩, ht, rfl⟩ := List.mem_map.1 hmem
  have hname : r.qualified = name := (congrArg TypeKey.qualified hkey).symm.trans (hqualified _ ht)
  have hfound : s.compilation.descriptor? r = some d := by
    rw [Compilation.descriptor?, hname]
    exact Bindings.get?_of_mem hnodup ht
  rw [Surroundings.home, hfound]
  exact if_pos hdeclared

/-- A type of the generated tree that can be spelled is a class. -/
theorem declared_of_home {r : TypeRef} (hpath : Name.IsPath r.name) {word : String}
    (hword : identifier? r.name = some word) (hhome : s.home r = .generated) :
    ∃ d ∈ declaredTypes s.compilation, d.key = r.key := by
  obtain ⟨files, -, hc⟩ := h.sources
  unfold Surroundings.home at hhome
  split at hhome
  · next d hfound =>
    split at hhome
    · next hdeclared =>
      have hmem := Bindings.mem_of_get? hfound
      have hd : d ∈ declaredTypes s.compilation :=
        List.mem_mergeSort.2 (List.mem_filter.2 ⟨List.mem_map_of_mem hmem, hdeclared⟩)
      have hcolon : ':' ∉ d.key.name.toList := (h.class_named d hd).name.toIsWord.colon_notMem
      have hqualified : Name.qualify d.key.ns d.key.name = Name.qualify r.ns r.name := by
        rw [hc] at hfound
        exact Compilation.descriptorNamed?_qualified hfound
      have hparts := congrArg Name.splitQualified hqualified
      rw [Name.splitQualified_qualify _ hcolon,
        Name.splitQualified_qualify _ (colon_notMem_of_identifier? hpath hword)] at hparts
      obtain ⟨hns, hname⟩ := Prod.mk.inj hparts
      refine ⟨d, hd, ?_⟩
      show TypeKey.mk d.key.ns d.key.name = TypeKey.mk r.ns r.name
      rw [hns, hname]
    · cases hhome
  · cases hhome

theorem resolves {placed : List Placed} (hplaced : placedItems s units = .ok placed)
    (hclasses : ∀ d ∈ declaredTypes s.compilation, ∃ levels p,
      Reached tree placed (Name.segments d.key.ns) levels p)
    {path : List String} {levels : Nat} {p : Place} (hp : Reached tree placed path levels p) :
    Resolves s units tree path p := by
  have hmodule {path : List String} {levels : Nat} {p : Place}
      (hp : Reached tree placed path levels p) : Module s units path p.focus :=
    module_of_holds hplaced (ofPlaced_holds hp.made hp.levels_le)
  have hfollow {ns : String} {segments : List String}
      (hsegments : segments.map some = (Name.segments ns).map identifier?) :
      p.follow (wordsUp path.length ++ segments) = tree.place? (Name.segments ns) := by
    rw [Place.follow_append, hp.up_wordsUp, Option.bind_some, place?, Place.foldlM_enter hsegments]
  have hspace {d : Descriptor} {r : TypeRef} (hkey : d.key = r.key) :
      Name.segments d.key.ns = Name.segments r.ns := congrArg Name.segments (congrArg TypeKey.ns hkey)
  refine ⟨hp.place, hp.mem, hmodule hp, fun r hr d hd hkey hns => ?_, fun words hwords => ?_⟩
  · obtain ⟨word, segments, hword, hsegments, hprints⟩ :=
      (hmodule hp).prints hp.uses_eq hr (h.home_of_declared hd hkey) hns
    obtain ⟨_, q, hq⟩ := hclasses d hd
    rw [hspace hkey] at hq
    obtain ⟨structs, containers, hitems, hstructs, -⟩ := (hmodule hq).items
    obtain ⟨item, hitem, hmade⟩ :=
      exists_mem_of_mapM_eq_ok hstructs (mem_classesAt.2 ⟨hd, hspace hkey⟩)
    have hname : identifier? d.key.name = some word :=
      (congrArg identifier? (congrArg TypeKey.name hkey)).trans hword
    exact ⟨word, _, q, hprints, (hfollow hsegments).trans hq.place, hq.place, hq.mem, hmodule hq,
      item, hitems ▸ List.mem_append_left _ hitem, hmade,
      Option.some.inj ((classItem_name hmade).symm.trans hname)⟩
  · obtain ⟨r, hr, hhome, hns, segments, hsegments, rfl⟩ :=
      (hmodule hp).imported hp.uses_eq hwords
    obtain ⟨word, hword, -⟩ := (hmodule hp).spells_code hr
    obtain ⟨d, hd, hkey⟩ := h.declared_of_home (h.isPath_spelled r hr) hword hhome
    obtain ⟨_, q, hq⟩ := hclasses d hd
    rw [hspace hkey] at hq
    exact ⟨r, hr, d, hd, hkey, hns, q, (hfollow hsegments).trans hq.place, hq.place⟩

end Emits

/-- Every module of generated code stands at the path of a namespace, and so there is one for each
namespace with classes. The relative paths that a module prints lead from its place to the modules
of the namespaces of other classes, which hold their structures. -/
theorem paths_resolve {inputs : List Input} {compiled : List CompiledType} {options : EmitOptions}
    {result : PassResult} {text : String} (h : compile inputs compiled options = .ok result)
    (hcode : result.code = some text) :
    ∃ s tree, Emits inputs compiled options s result.units tree text ∧
      (∀ m ∈ tree.modules, ∃ path p, p.focus = m ∧ Emission.Resolves s result.units tree path p) ∧
      ∀ d ∈ Emission.declaredTypes s.compilation, ∃ p,
        Emission.Resolves s result.units tree (Name.segments d.key.ns) p := by
  obtain ⟨s, tree, hemits⟩ := emits_of_compile h hcode
  obtain ⟨placed, hplaced, hmodules, hclasses⟩ := hemits.reached
  refine ⟨s, tree, hemits, fun m hm => ?_, fun d hd => ?_⟩
  · obtain ⟨path, levels, p, hp, rfl⟩ := hmodules m hm
    exact ⟨path, p, rfl, hemits.resolves hplaced hclasses hp⟩
  · obtain ⟨levels, p, hp⟩ := hclasses d hd
    exact ⟨p, hemits.resolves hplaced hclasses hp⟩

/-! ### Classes of two namespaces -/

namespace Sample

def wholeText : String := "namespace a::b\nclass S:\n t: a::c::T\n"

def partText : String := "namespace a::c\nclass T:\n n: int\n"

/-- A class with a property of a class of another namespace. -/
def spaces : List Input := [⟨"whole", wholeText⟩, ⟨"part", partText⟩]

def wholeClass : Source.Class :=
  ⟨⟨15, 36⟩, [], "S", [], [⟨⟨25, 35⟩, .readWrite, "t", .named ⟨28, 35⟩ ["a", "c", "T"]⟩], []⟩

def partClass : Source.Class :=
  ⟨⟨15, 32⟩, [], "T", [], [⟨⟨25, 31⟩, .readWrite, "n", .named ⟨28, 31⟩ ["int"]⟩], []⟩

def spacesFiles : List SourceFile :=
  [⟨"whole", wholeText, ⟨[.space ⟨0, 14⟩ ["a", "b"], .cls wholeClass]⟩⟩,
    ⟨"part", partText, ⟨[.space ⟨0, 14⟩ ["a", "c"], .cls partClass]⟩⟩]

def wholeType : Descriptor :=
  ⟨⟨"a::b", "S"⟩, [], [⟨⟨"a::b", "S"⟩, "t", .mk "a::c" "T" [], true, true, ⟨25, 35⟩⟩], [],
    some ⟨0, ⟨15, 36⟩⟩⟩

def partType : Descriptor :=
  ⟨⟨"a::c", "T"⟩, [], [⟨⟨"a::c", "T"⟩, "n", .builtin .int, true, true, ⟨25, 31⟩⟩], [],
    some ⟨1, ⟨15, 32⟩⟩⟩

def spacesPass : Compilation where
  files := spacesFiles
  origins := [("a::b::S", .declared 0 "a::b" wholeClass), ("a::c::T", .declared 1 "a::c" partClass)]
  types := [("a::b::S", wholeType), ("a::c::T", partType)]
  problems := []

theorem spaces_read : readSources spaces = .ok spacesFiles := by cbv

theorem spaces_pass : Compilation.ofSources spacesFiles [] = spacesPass := by cbv

theorem spaces_types : Emission.declaredTypes spacesPass = [wholeType, partType] := by cbv

theorem spaces_placed : ∃ placed, Emission.placedItems ⟨spacesPass, crate⟩ [] = .ok placed ∧
    ModuleTree.Spellable placed ∧
      Emission.rootFits crate (placed.flatMap (·.item.references)) = true := by
  refine Emission.exists_placed ?_
  unfold Emission.placedItems
  rw [spaces_types, List.mergeSort_nil]
  decide +kernel

theorem spaces_compile : ∃ result text, compile spaces [] .default = .ok result ∧
    result.code = some text ∧ result.units = [] := by
  obtain ⟨placed, hplaced, hspellable, hfits⟩ := spaces_placed
  exact exists_compile spaces_read spaces_pass rfl rfl crate_read hplaced hspellable
    (.inr (by decide +kernel)) hfits

end Sample

theorem paths_resolve_spaces : ∃ result text, compile Sample.spaces [] .default = .ok result ∧
    result.code = some text ∧ ∃ s tree, Emits Sample.spaces [] .default s result.units tree text ∧
      ∃ p q words, tree.place? ["a", "b"] = some p ∧ .relative words ∈ p.focus.uses ∧
        p.follow words = some q ∧ tree.place? ["a", "c"] = some q ∧
        ∃ item ∈ q.focus.items, item.name = "T" := by
  obtain ⟨result, text, h, hcode, hunits⟩ := Sample.spaces_compile
  obtain ⟨s, tree, hemits, -, hclasses⟩ := paths_resolve h hcode
  obtain ⟨files, hread, hc⟩ := hemits.sources
  cases Sample.spaces_read.symm.trans hread
  rw [Sample.spaces_pass] at hc
  have hd : Sample.wholeType ∈ Emission.declaredTypes s.compilation := by
    rw [hc, Sample.spaces_types]
    exact List.mem_cons_self
  obtain ⟨p, hp⟩ := hclasses _ hd
  have hwhole : Name.segments Sample.wholeType.key.ns = ["a", "b"] := by decide +kernel
  have hpart : Name.segments (TypeRef.mk "a::c" "T" []).ns = ["a", "c"] := by decide +kernel
  rw [hwhole] at hp
  have hspelled : .mk "a::c" "T" [] ∈ Emission.spelledAt s.compilation result.units ["a", "b"] := by
    refine List.mem_append_left _ (List.mem_flatMap.2 ⟨_, Emission.mem_classesAt.2 ⟨hd, hwhole⟩,
      List.mem_flatMap.2 ⟨_, List.mem_cons_self, ?_⟩⟩)
    show TypeRef.mk "a::c" "T" [] ∈ (TypeRef.mk "a::c" "T" []).spelled []
    simp [TypeRef.spelled, TypeRef.builtin?, TypeRef.ns]
  have hd' : Sample.partType ∈ Emission.declaredTypes s.compilation := by
    rw [hc, Sample.spaces_types]
    exact List.mem_cons_of_mem _ List.mem_cons_self
  obtain ⟨word, words, q, hprints, hfollow, hq, -, -, item, hitem, hmade, -⟩ :=
    hp.classes _ hspelled _ hd' rfl (by decide)
  have hword : identifier? "T" = some "T" := by decide +kernel
  rw [hpart] at hq
  cases hprints with
  | imported _ huse =>
    exact ⟨result, text, h, hcode, s, tree, hemits, p, q, words, hp.place, huse, hfollow, hq, item,
      hitem, (Option.some.inj (hword.symm.trans (Emission.classItem_name hmade))).symm⟩
  | before hns => exact absurd hns (by decide)

end StagedMapping
