import StagedMapping.Proofs.RequestOrder

/-! Generated code in another order of the sources. Code is made of the classes in the order
of their names and of the mappings in the order of theirs, and nothing in it tells where a
type is declared. So passes that know the same up to the numbers of the sources, with the
same mappings in any order, have the same code or the same reason for having none
(`Emission.file_renumbered`). -/
namespace StagedMapping
open Generated

/-! ### Types -/

namespace Generated

/-- Types live in the same places, under the same source root. -/
structure Surroundings.Alike (s s' : Surroundings) : Prop where
  root : s'.root = s.root
  home : s'.home = s.home

namespace Surroundings
variable {s s' : Surroundings}

theorem Alike.named (h : s.Alike s') (depth : Nat) (t : TypeRef) (word : String) :
    s'.named depth t word = s.named depth t word := by
  unfold Surroundings.named
  rw [h.home, h.root]

mutual

theorem Alike.typeCode (h : s.Alike s') (depth : Nat) (generics : List String) : (t : TypeRef) →
    s'.typeCode depth generics t = s.typeCode depth generics t
  | .mk ns name args => by
    rw [Surroundings.typeCode, Surroundings.typeCode]
    simp only [h.firstCode depth generics args, h.argCodes depth generics args, h.named]

theorem Alike.argCodes (h : s.Alike s') (depth : Nat) (generics : List String) :
    (ts : List TypeRef) → s'.argCodes depth generics ts = s.argCodes depth generics ts
  | [] => rfl
  | t :: rest => by
    rw [Surroundings.argCodes, Surroundings.argCodes, h.typeCode depth generics t,
      h.argCodes depth generics rest]

theorem Alike.firstCode (h : s.Alike s') (depth : Nat) (generics : List String) :
    (ts : List TypeRef) → s'.firstCode depth generics ts = s.firstCode depth generics ts
  | [] => rfl
  | t :: _ => h.typeCode depth generics t

end

mutual

theorem Alike.references (h : s.Alike s') (generics : List String) : (t : TypeRef) →
    s'.references generics t = s.references generics t
  | .mk ns name args => by
    rw [Surroundings.references, Surroundings.references]
    simp only [h.firstReferences generics args, h.argReferences generics args, h.home]

theorem Alike.argReferences (h : s.Alike s') (generics : List String) : (ts : List TypeRef) →
    s'.argReferences generics ts = s.argReferences generics ts
  | [] => rfl
  | t :: rest => by
    rw [Surroundings.argReferences, Surroundings.argReferences, h.references generics t,
      h.argReferences generics rest]

theorem Alike.firstReferences (h : s.Alike s') (generics : List String) : (ts : List TypeRef) →
    s'.firstReferences generics ts = s.firstReferences generics ts
  | [] => rfl
  | t :: _ => h.references generics t

end

end Surroundings

/-! ### Items -/

variable {s s' : Surroundings} (h : s.Alike s')
include h

theorem classItem_alike (d : Descriptor) (σ : Nat → Nat) :
    classItem s' (d.renumbered σ) = classItem s d := by
  have hfield : fieldCode s' = fieldCode s := by
    funext depth generics p
    unfold fieldCode
    rw [h.typeCode]
  have hreferences : s'.references = s.references := by
    funext generics t
    exact h.references generics t
  unfold classItem
  rw [hfield, hreferences]
  rfl

theorem mapperItem_alike (u : MapUnit) (σ : Nat → Nat) (shared : Bool) :
    mapperItem s' (u.renumbered σ) shared = mapperItem s u shared := by
  have htype : s'.typeCode = s.typeCode := by
    funext depth generics t
    exact h.typeCode depth generics t
  have hreferences : s'.references = s.references := by
    funext generics t
    exact h.references generics t
  have hparam : factoryParam s' = factoryParam s := by
    funext depth p
    unfold factoryParam
    rw [htype]
  unfold mapperItem
  rw [htype, hreferences, hparam]
  rfl

end Generated

/-! ### The order of mappings -/

namespace Emission

section
variable {α κ : Type} [DecidableEq κ]

/-- By a key, and for one key by another order. -/
def keyedLe (key : α → κ) (keyLe : κ → κ → Bool) (le : α → α → Bool) (a b : α) : Bool :=
  if key a = key b then le a b else keyLe (key a) (key b)

variable {key : α → κ} {keyLe : κ → κ → Bool} {le : α → α → Bool}

theorem keyedLe_antisymm (hkey : ∀ x y, keyLe x y = true → keyLe y x = true → x = y) {a b : α}
    (hab : keyedLe key keyLe le a b = true) (hba : keyedLe key keyLe le b a = true) :
    key a = key b ∧ le a b = true ∧ le b a = true := by
  unfold keyedLe at hab hba
  by_cases he : key a = key b
  · rw [if_pos he] at hab
    rw [if_pos he.symm] at hba
    exact ⟨he, hab, hba⟩
  · rw [if_neg he] at hab
    rw [if_neg (Ne.symm he)] at hba
    exact absurd (hkey _ _ hab hba) he

theorem keyedLe_total (hkey : ∀ x y, (keyLe x y || keyLe y x) = true)
    (hle : ∀ a b, (le a b || le b a) = true) (a b : α) :
    (keyedLe key keyLe le a b || keyedLe key keyLe le b a) = true := by
  unfold keyedLe
  by_cases he : key a = key b
  · rw [if_pos he, if_pos he.symm]
    exact hle a b
  · rw [if_neg he, if_neg (Ne.symm he)]
    exact hkey _ _

theorem keyedLe_trans (key : α → κ) (hanti : ∀ x y, keyLe x y = true → keyLe y x = true → x = y)
    (hkey : ∀ x y z, keyLe x y = true → keyLe y z = true → keyLe x z = true)
    (hle : ∀ a b c, le a b = true → le b c = true → le a c = true) (a b c : α)
    (hab : keyedLe key keyLe le a b = true) (hbc : keyedLe key keyLe le b c = true) :
    keyedLe key keyLe le a c = true := by
  unfold keyedLe at *
  by_cases he : key a = key b
  · rw [if_pos he] at hab
    rw [he]
    split at hbc
    · next hf => rw [if_pos hf]; exact hle a b c hab hbc
    · next hf => rw [if_neg hf]; exact hbc
  · rw [if_neg he] at hab
    split at hbc
    · next hf => rw [← hf, if_neg he]; exact hab
    · next hf =>
      have hac : key a ≠ key c := fun hac => he (hanti _ _ hab (hac ▸ hbc))
      rw [if_neg hac]
      exact hkey _ _ _ hab hbc

end

/-- The order of strings, as it is computed. -/
def textLe (a b : String) : Bool := a ≤ b

theorem textLe_antisymm (a b : String) (hab : textLe a b = true) (hba : textLe b a = true) : a = b :=
  String.le_antisymm (of_decide_eq_true hab) (of_decide_eq_true hba)

theorem textLe_total (a b : String) : (textLe a b || textLe b a) = true := by
  simpa [textLe] using String.le_total a b

theorem textLe_trans (a b c : String) (hab : textLe a b = true) (hbc : textLe b c = true) :
    textLe a c = true :=
  decide_eq_true (String.le_trans (of_decide_eq_true hab) (of_decide_eq_true hbc))

theorem keyLe_eq : TypeKey.le = keyedLe TypeKey.ns textLe fun a b => textLe a.name b.name := rfl

theorem keyLe_antisymm (a b : TypeKey) (hab : a.le b = true) (hba : b.le a = true) : a = b := by
  rw [keyLe_eq] at hab hba
  obtain ⟨hns, hname, hname'⟩ := keyedLe_antisymm textLe_antisymm hab hba
  cases a
  cases b
  exact congr (congrArg TypeKey.mk hns) (textLe_antisymm _ _ hname hname')

theorem keyLe_total (a b : TypeKey) : (a.le b || b.le a) = true := by
  have hname (a b : TypeKey) := textLe_total a.name b.name
  rw [keyLe_eq]
  exact keyedLe_total textLe_total hname a b

theorem keyLe_trans (a b c : TypeKey) : a.le b = true → b.le c = true → a.le c = true := by
  have hname (a b c : TypeKey) := textLe_trans a.name b.name c.name
  rw [keyLe_eq]
  exact keyedLe_trans TypeKey.ns textLe_antisymm textLe_trans hname a b c

theorem unitLe_eq : unitLe = keyedLe (fun u : MapUnit => u.target.key) TypeKey.le fun a b =>
    textLe a.source.qualified b.source.qualified := rfl

/-- Two mappings that are equally great have the same target, and sources of one name. -/
theorem unitLe_antisymm {a b : MapUnit} (hab : unitLe a b = true) (hba : unitLe b a = true) :
    a.target.key = b.target.key ∧ a.source.qualified = b.source.qualified := by
  rw [unitLe_eq] at hab hba
  obtain ⟨hkey, hname, hname'⟩ := keyedLe_antisymm keyLe_antisymm hab hba
  exact ⟨hkey, textLe_antisymm _ _ hname hname'⟩

theorem unitLe_total (a b : MapUnit) : (unitLe a b || unitLe b a) = true := by
  have hsource (a b : MapUnit) := textLe_total a.source.qualified b.source.qualified
  rw [unitLe_eq]
  exact keyedLe_total keyLe_total hsource a b

theorem unitLe_trans (a b c : MapUnit) : unitLe a b = true → unitLe b c = true →
    unitLe a c = true := by
  have hsource (a b c : MapUnit) :=
    textLe_trans a.source.qualified b.source.qualified c.source.qualified
  rw [unitLe_eq]
  exact keyedLe_trans (fun u : MapUnit => u.target.key) keyLe_antisymm keyLe_trans hsource a b c

/-! ### Code -/

variable {σ : Nat → Nat} {c c' : Compilation}

theorem alike_of_renumbered (h : c.Renumbered σ c') (root : Path) :
    (⟨c, root⟩ : Surroundings).Alike ⟨c', root⟩ where
  root := rfl
  home := by
    funext t
    have hknown : c'.descriptor? t = (c.descriptor? t).map (·.renumbered σ) :=
      h.descriptorNamed? _
    unfold Surroundings.home
    rw [hknown]
    cases c.descriptor? t with
    | none => rfl
    | some d => simp [Descriptor.renumbered]

theorem declaredTypes_renumbered (h : c.Renumbered σ c') :
    declaredTypes c' = (declaredTypes c).map (·.renumbered σ) := by
  have hmap (ds : List Descriptor) : (ds.mergeSort fun a b => a.key.le b.key).map (·.renumbered σ) =
      (ds.map (·.renumbered σ)).mergeSort fun a b => a.key.le b.key :=
    List.map_mergeSort fun _ _ _ _ => rfl
  unfold declaredTypes
  rw [hmap, h.types]
  simp [List.filter_map, Function.comp_def, Descriptor.renumbered]

/-- The mappings of a pass in their order, whatever the order in which they were made. -/
theorem sorted_renumbered {units units' : List MapUnit}
    (hperm : units'.Perm (units.map (·.renumbered σ)))
    (hdistinct : ∀ a ∈ units, ∀ b ∈ units, a.target.key = b.target.key →
      a.source.qualified = b.source.qualified → a = b) :
    units'.mergeSort unitLe = (units.mergeSort unitLe).map (·.renumbered σ) := by
  have hmap : (units.mergeSort unitLe).map (·.renumbered σ) =
      (units.map (·.renumbered σ)).mergeSort unitLe := List.map_mergeSort fun _ _ _ _ => rfl
  rw [hmap]
  refine (mergeSort_eq_of_perm unitLe_trans unitLe_total hperm.symm
    fun a ha b hb hab hba => ?_).symm
  obtain ⟨u, hu, rfl⟩ := List.mem_map.1 ha
  obtain ⟨v, hv, rfl⟩ := List.mem_map.1 hb
  obtain ⟨hkey, hname⟩ := unitLe_antisymm hab hba
  rw [hdistinct u hu v hv hkey hname]

theorem placedItems_renumbered (h : c.Renumbered σ c') (root : Path) {units units' : List MapUnit}
    (hperm : units'.Perm (units.map (·.renumbered σ)))
    (hdistinct : ∀ a ∈ units, ∀ b ∈ units, a.target.key = b.target.key →
      a.source.qualified = b.source.qualified → a = b) :
    placedItems ⟨c', root⟩ units' = placedItems ⟨c, root⟩ units := by
  have halike := alike_of_renumbered h root
  have hclass : placedClass ⟨c', root⟩ ∘ (·.renumbered σ) = placedClass ⟨c, root⟩ := by
    funext d
    unfold placedClass
    rw [Function.comp_apply, classItem_alike halike]
    rfl
  have hshared (u : MapUnit) : isShared units' (u.renumbered σ) = isShared units u := by
    unfold isShared
    rw [hperm.countP_eq, List.countP_map]
    rfl
  have hmapper : placedMapper ⟨c', root⟩ units' ∘ (·.renumbered σ) =
      placedMapper ⟨c, root⟩ units := by
    funext u
    unfold placedMapper
    rw [Function.comp_apply, hshared, mapperItem_alike halike]
    rfl
  unfold placedItems
  dsimp only
  rw [declaredTypes_renumbered h, sorted_renumbered hperm hdistinct, List.filter_map]
  simp only [List.mapM_map, hclass, hmapper]
  rfl

/-- The generated file is the same, or missing for the same reason. -/
theorem file_renumbered (h : c.Renumbered σ c') {units units' : List MapUnit}
    (hperm : units'.Perm (units.map (·.renumbered σ)))
    (hdistinct : ∀ a ∈ units, ∀ b ∈ units, a.target.key = b.target.key →
      a.source.qualified = b.source.qualified → a = b) (options : EmitOptions) :
    file c' units' options = file c units options := by
  have htree (root : Path) : moduleTree ⟨c', root⟩ units' = moduleTree ⟨c, root⟩ units := by
    unfold moduleTree
    rw [placedItems_renumbered h root hperm hdistinct]
  unfold file code
  simp only [htree]

end Emission
end StagedMapping
