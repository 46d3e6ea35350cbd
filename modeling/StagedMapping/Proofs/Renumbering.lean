import Mathlib.Data.List.Nodup
import StagedMapping.Proofs.Agreement

/-! Sources in another order. A pass refers to its sources by their positions, so the same
sources in another order are a renumbering (`Reordered`). If no type is declared twice, what
a pass knows is the same up to the numbers: its types, in the order of their names, and what
written types refer to (`Compilation.Renumbered`). If a type is declared twice, both orders
leave an error. -/
namespace StagedMapping

/-! ### Positions -/

/-- `files'` are the sources `files` in another order: the one at `i` stands at `σ i`. -/
structure Reordered (σ : Nat → Nat) (files files' : List SourceFile) : Prop where
  get : ∀ i, files'[σ i]? = files[i]?
  perm : files'.zipIdx.Perm (files.zipIdx.map fun f => (f.1, σ f.2))

/-- Numbers after the first one, renumbered. -/
def afterFirst (σ : Nat → Nat) : Nat → Nat
  | 0 => 0
  | i + 1 => σ i + 1

/-- The first two numbers in the other order. -/
def swapFirst : Nat → Nat
  | 0 => 1
  | 1 => 0
  | i + 2 => i + 2

theorem exists_reordered {files files' : List SourceFile} (h : files.Perm files') :
    ∃ σ, Reordered σ files files' := by
  induction h with
  | nil => exact ⟨id, fun _ => rfl, .nil⟩
  | @cons f rest rest' _ ih =>
    obtain ⟨σ, hget, hperm⟩ := ih
    refine ⟨afterFirst σ, fun i => ?_, ?_⟩
    · cases i with
      | zero => rfl
      | succ i => exact hget i
    · rw [List.zipIdx_cons, List.zipIdx_cons, List.map_cons, List.zipIdx_succ, List.zipIdx_succ,
        List.map_map]
      exact ((hperm.map _).trans (by simp [Function.comp_def, afterFirst])).cons _
  | swap f g rest =>
    refine ⟨swapFirst, fun i => ?_, ?_⟩
    · rcases i with _ | _ | i <;> rfl
    · simp only [List.zipIdx_cons, List.zipIdx_succ, List.map_cons, List.map_map]
      exact .swap ..
  | trans _ _ ih ih' =>
    obtain ⟨σ, hget, hperm⟩ := ih
    obtain ⟨τ, hget', hperm'⟩ := ih'
    refine ⟨τ ∘ σ, fun i => (hget' (σ i)).trans (hget i), hperm'.trans ?_⟩
    exact (hperm.map _).trans (by simp [Function.comp_def])

/-- Sorting forgets the order of a list, if no two different elements are equally great. -/
theorem mergeSort_eq_of_perm {α : Type} {le : α → α → Bool}
    (trans : ∀ a b c, le a b = true → le b c = true → le a c = true)
    (total : ∀ a b, (le a b || le b a) = true) {xs ys : List α} (h : xs.Perm ys)
    (antisymm : ∀ a ∈ xs, ∀ b ∈ xs, le a b = true → le b a = true → a = b) :
    xs.mergeSort le = ys.mergeSort le := by
  have hp : (xs.mergeSort le).Perm (ys.mergeSort le) :=
    ((List.mergeSort_perm ..).trans h).trans (List.mergeSort_perm ..).symm
  refine hp.eq_of_pairwise (fun a b ha hb => ?_) (List.pairwise_mergeSort trans total _)
    (List.pairwise_mergeSort trans total _)
  exact antisymm a (List.mem_mergeSort.1 ha) b (h.mem_iff.2 (List.mem_mergeSort.1 hb))

theorem infix_flatMap {α β : Type} {f : α → List β} {xs : List α} {x : α} (h : x ∈ xs) :
    f x <:+: xs.flatMap f := by
  obtain ⟨before, after, rfl⟩ := List.append_of_mem h
  exact ⟨before.flatMap f, after.flatMap f, by simp⟩

/-! ### What is renumbered -/

variable (σ : Nat → Nat)

def SourceProblem.renumbered (p : SourceProblem) : SourceProblem := { p with source := σ p.source }

def Origin.renumbered : Origin → Origin
  | .declared source ns c => .declared (σ source) ns c
  | .compiled c => .compiled c

def DeclaredAt.renumbered (a : DeclaredAt) : DeclaredAt := { a with source := σ a.source }

def Descriptor.renumbered (d : Descriptor) : Descriptor :=
  { d with declared := d.declared.map (·.renumbered σ) }

/-- Two passes with the same types, up to the numbers of the sources. -/
structure Inventory.Renumbered (inv inv' : Inventory) : Prop where
  files : Reordered σ inv.files inv'.files
  origins : inv'.origins.Perm (inv.origins.map fun o => (o.1, o.2.renumbered σ))
  nodup : (Bindings.names inv.origins).Nodup

namespace Inventory
variable {σ}

/-! ### The types of a pass -/

/-- A class under its name, as a type of the pass. -/
def declaredOrigin (entry : String × Nat × String × Source.Class) : String × Origin :=
  (entry.1, .declared entry.2.1 entry.2.2.1 entry.2.2.2)

theorem declarations_reordered {files files' : List SourceFile} (h : Reordered σ files files') :
    (declarations files').Perm ((declarations files).map fun e => (e.1, σ e.2.1, e.2.2)) := by
  refine (h.perm.flatMap_right _).trans (.of_eq ?_)
  unfold declarations
  rw [List.flatMap_map, List.map_flatMap]
  congr 1
  funext f
  simp [Function.comp_def]

theorem addDeclared_of_free {origins : List (String × Origin)} {name : String}
    (h : name ∉ Bindings.names origins) (source : Nat) (ns : String) (c : Source.Class) :
    addDeclared origins name source ns c = pure (origins ++ [(name, .declared source ns c)]) :=
  if_neg (by rwa [Bindings.get?_isSome])

theorem nodup_names_append {origins : List (String × Origin)}
    (ho : (Bindings.names origins).Nodup) {name : String} (h : name ∉ Bindings.names origins)
    (o : Origin) : (Bindings.names (origins ++ [(name, o)])).Nodup := by
  have hnames : Bindings.names (origins ++ [(name, o)]) = Bindings.names origins ++ [name] := by
    simp [Bindings.names]
  rw [hnames]
  exact List.nodup_append.2 ⟨ho, by simp, fun a ha b hb he => h (List.mem_singleton.1 hb ▸ he ▸ ha)⟩

/-- Classes of different names are all taken up. -/
theorem addDeclared_run {entries : List (String × Nat × String × Source.Class)}
    {origins : List (String × Origin)}
    (h : (Bindings.names origins ++ entries.map (·.1)).Nodup) :
    entries.foldlM (fun origins (name, source, ns, c) => addDeclared origins name source ns c)
      origins = pure (origins ++ entries.map declaredOrigin) := by
  induction entries generalizing origins with
  | nil => simp
  | cons e rest ih =>
    obtain ⟨name, source, ns, c⟩ := e
    have hfree : name ∉ Bindings.names origins := fun hmem =>
      (List.nodup_append.1 h).2.2 _ hmem _ List.mem_cons_self rfl
    have hnext : (Bindings.names (origins ++ [(name, .declared source ns c)]) ++
        rest.map (·.1)).Nodup := by
      simpa [Bindings.names] using h
    rw [List.foldlM_cons]
    dsimp only
    rw [addDeclared_of_free hfree, pure_bind, ih hnext]
    simp [declaredOrigin]

/-- A class whose name is taken leaves an error. -/
theorem addDeclared_run_error {entries : List (String × Nat × String × Source.Class)}
    {origins : List (String × Origin)} (ho : (Bindings.names origins).Nodup)
    (h : ¬ (Bindings.names origins ++ entries.map (·.1)).Nodup) :
    (entries.foldlM (fun origins (name, source, ns, c) => addDeclared origins name source ns c)
      origins).notes.any (·.problem.isError) = true := by
  induction entries generalizing origins with
  | nil => simp [ho] at h
  | cons e rest ih =>
    obtain ⟨name, source, ns, c⟩ := e
    rw [List.foldlM_cons]
    dsimp only
    by_cases hmem : name ∈ Bindings.names origins
    · rw [addDeclared, if_pos ((Bindings.get?_isSome ..).2 hmem)]
      rfl
    · rw [addDeclared_of_free hmem, pure_bind]
      exact ih (nodup_names_append ho hmem _) (by simpa [Bindings.names] using h)

/-- No name is taken up twice. -/
theorem addDeclared_run_nodup (entries : List (String × Nat × String × Source.Class))
    {origins : List (String × Origin)} (h : (Bindings.names origins).Nodup) :
    (Bindings.names (entries.foldlM
      (fun origins (name, source, ns, c) => addDeclared origins name source ns c)
      origins).value).Nodup := by
  induction entries generalizing origins with
  | nil => exact h
  | cons e rest ih =>
    rw [List.foldlM_cons, Noted.bind_value]
    refine ih ?_
    dsimp only [addDeclared]
    split
    · exact h
    · next hnone => exact nodup_names_append h (by rwa [Bindings.get?_isSome] at hnone) _

/-- Of several classes of one name the first is taken up. -/
theorem get?_addDeclared_run (entries : List (String × Nat × String × Source.Class))
    (origins : List (String × Origin)) (name : String) :
    Bindings.get? (entries.foldlM
        (fun origins (name, source, ns, c) => addDeclared origins name source ns c) origins).value
        name =
      (Bindings.get? origins name).or
        ((Bindings.get? entries name).map fun (source, ns, c) => .declared source ns c) := by
  induction entries generalizing origins with
  | nil => simp
  | cons e rest ih =>
    obtain ⟨taken, source, ns, c⟩ := e
    rw [List.foldlM_cons, Noted.bind_value, ih, Bindings.get?_cons]
    dsimp only [addDeclared]
    by_cases hname : taken = name
    · subst hname
      cases horigin : Bindings.get? origins taken <;> simp [horigin, Bindings.get?_append]
    · have hother : (taken == name) = false := by simpa using hname
      rw [hother]
      split <;> simp [Bindings.get?_append, hother]

theorem get?_addCompiled_run (compiled : List CompiledType) {origins : List (String × Origin)}
    {name : String} {o : Origin} (h : Bindings.get? origins name = some o) :
    Bindings.get? (compiled.foldl addCompiled origins) name = some o := by
  induction compiled generalizing origins with
  | nil => exact h
  | cons c rest ih =>
    refine ih ?_
    unfold addCompiled
    split
    · exact h
    · rw [Bindings.get?_append, h, Option.some_or]

theorem addCompiled_run_nodup (compiled : List CompiledType) {origins : List (String × Origin)}
    (h : (Bindings.names origins).Nodup) :
    (Bindings.names (compiled.foldl addCompiled origins)).Nodup := by
  induction compiled generalizing origins with
  | nil => exact h
  | cons c rest ih =>
    refine ih ?_
    unfold addCompiled
    split
    · exact h
    · next hnone => exact nodup_names_append h (by rwa [Bindings.get?_isSome] at hnone) _

/-- Compiled types are added by name, so the order of the declared ones is no matter. -/
theorem addCompiled_run_renumbered {compiled : List CompiledType}
    {origins origins' : List (String × Origin)}
    (h : origins'.Perm (origins.map fun o => (o.1, o.2.renumbered σ))) :
    (compiled.foldl addCompiled origins').Perm
      ((compiled.foldl addCompiled origins).map fun o => (o.1, o.2.renumbered σ)) := by
  induction compiled generalizing origins origins' with
  | nil => exact h
  | cons c rest ih =>
    have hnames : (Bindings.names origins').Perm (Bindings.names origins) :=
      (h.map Prod.fst).trans (.of_eq (by simp [Bindings.names, Function.comp_def]))
    refine ih ?_
    unfold addCompiled
    by_cases hmem : c.qualified ∈ Bindings.names origins
    · rw [if_pos ((Bindings.get?_isSome ..).2 (hnames.mem_iff.2 hmem)),
        if_pos ((Bindings.get?_isSome ..).2 hmem)]
      exact h
    · rw [← Bindings.get?_isSome] at hmem
      rw [if_neg (by rwa [Bindings.get?_isSome, hnames.mem_iff, ← Bindings.get?_isSome]),
        if_neg hmem, List.map_append]
      exact h.append (.refl _)


/-- Where no type is declared twice, all are taken up. -/
theorem ofSources_eq {files : List SourceFile} (compiled : List CompiledType)
    (hd : ((declarations files).map (·.1)).Nodup) : ofSources files compiled =
      pure ⟨files, compiled.foldl addCompiled ((declarations files).map declaredOrigin)⟩ := by
  unfold ofSources
  have hfree : (Bindings.names (α := Origin) [] ++ (declarations files).map (·.1)).Nodup := hd
  rw [addDeclared_run hfree]
  rfl

theorem ofSources_nodup (files : List SourceFile) (compiled : List CompiledType) :
    (Bindings.names (ofSources files compiled).value.origins).Nodup :=
  addCompiled_run_nodup _ (addDeclared_run_nodup _ List.nodup_nil)

/-- A name that is declared stands for its first declaration. -/
theorem origin?_declared {files : List SourceFile} (compiled : List CompiledType) {name : String}
    {source : Nat} {ns : String} {c : Source.Class}
    (h : Bindings.get? (declarations files) name = some (source, ns, c)) :
    (ofSources files compiled).value.origin? name = some (.declared source ns c) := by
  refine get?_addCompiled_run compiled ?_
  rw [get?_addDeclared_run, h]
  rfl

theorem ofSources_renumbered {files files' : List SourceFile} (h : Reordered σ files files')
    (compiled : List CompiledType) (hd : ((declarations files).map (·.1)).Nodup) :
    (ofSources files compiled).notes = [] ∧ (ofSources files' compiled).notes = [] ∧
      (ofSources files compiled).value.Renumbered σ (ofSources files' compiled).value := by
  have hnames : ((declarations files').map (·.1)).Perm ((declarations files).map (·.1)) :=
    ((declarations_reordered h).map _).trans (.of_eq (by simp [Function.comp_def]))
  have hnodup := ofSources_nodup files compiled
  rw [ofSources_eq compiled hd] at hnodup ⊢
  rw [ofSources_eq compiled (hnames.nodup_iff.2 hd)]
  refine ⟨rfl, rfl, h, addCompiled_run_renumbered ?_, hnodup⟩
  refine ((declarations_reordered h).map _).trans (.of_eq ?_)
  simp [declaredOrigin, Origin.renumbered, Function.comp_def]

/-- Where a type is declared twice, there is an error. -/
theorem ofSources_error {files : List SourceFile} (compiled : List CompiledType)
    (hd : ¬ ((declarations files).map (·.1)).Nodup) :
    (ofSources files compiled).notes.any (·.problem.isError) = true := by
  unfold ofSources
  rw [Noted.bind_notes, Noted.pure_notes, List.append_nil]
  have htaken : ¬ (Bindings.names (α := Origin) [] ++ (declarations files).map (·.1)).Nodup := hd
  exact addDeclared_run_error List.nodup_nil htaken

/-! ### What names refer to -/

section
variable {inv inv' : Inventory} (h : inv.Renumbered σ inv')
include h

theorem Renumbered.origin? (name : String) :
    inv'.origin? name = (inv.origin? name).map (·.renumbered σ) := by
  have hnames : (Bindings.names (inv.origins.map fun o => (o.1, o.2.renumbered σ))).Nodup := by
    simpa [Bindings.names, Function.comp_def] using h.nodup
  exact (Bindings.get?_perm h.origins hnames name).trans (Bindings.get?_map ..)

theorem Renumbered.contains : inv'.contains = inv.contains := by
  funext name
  unfold Inventory.contains
  rw [h.origin?, Option.isSome_map]

theorem Renumbered.context? (i : Nat) : inv'.context? (σ i) = inv.context? i := by
  unfold Inventory.context?
  rw [h.files.get]

theorem Renumbered.arity? : inv'.arity? = inv.arity? := by
  funext generics t
  unfold Inventory.arity?
  rw [h.origin?, Option.map_map]
  have hparams : (fun o : Origin => o.typeParams.length) ∘ Origin.renumbered σ =
      fun o => o.typeParams.length := by
    funext o
    cases o <;> rfl
  rw [hparams]

theorem Renumbered.resolvePath (i : Nat) : inv'.resolvePath (σ i) = inv.resolvePath i := by
  have hknown : inv'.known = inv.known := by
    funext name span
    unfold Inventory.known
    rw [h.contains]
  have hlookupIn : inv'.lookupIn = inv.lookupIn := by
    funext context name span
    unfold Inventory.lookupIn
    rw [h.contains, hknown]
  have hlookup : inv'.lookup (σ i) = inv.lookup i := by
    funext generics path span
    unfold Inventory.lookup
    rw [h.context?, hknown, hlookupIn]
  have happly : inv'.apply = inv.apply := by
    funext generics t args span
    unfold Inventory.apply
    rw [h.arity?]
  funext generics path args span
  unfold Inventory.resolvePath
  rw [hlookup, happly]

end

mutual

/-- A written type refers to the same in both orders. -/
theorem Renumbered.resolve {inv inv' : Inventory} (h : inv.Renumbered σ inv') (i : Nat)
    (generics : List String) : (t : Source.TypeExpr) →
    inv'.resolve (σ i) generics t = inv.resolve i generics t
  | .named .. => by rw [Inventory.resolve, Inventory.resolve, h.resolvePath]
  | .applied _ _ args => by
    rw [Inventory.resolve, Inventory.resolve, h.resolvePath, h.resolveAll i generics args]

theorem Renumbered.resolveAll {inv inv' : Inventory} (h : inv.Renumbered σ inv') (i : Nat)
    (generics : List String) : (ts : List Source.TypeExpr) →
    inv'.resolveAll (σ i) generics ts = inv.resolveAll i generics ts
  | [] => rfl
  | t :: rest => by
    rw [Inventory.resolveAll, Inventory.resolveAll, h.resolve i generics t,
      h.resolveAll i generics rest]

end

/-! ### Descriptors -/

theorem Renumbered.describe {inv inv' : Inventory} (h : inv.Renumbered σ inv') (o : Origin) :
    inv'.describe (o.renumbered σ) =
      ((·.renumbered σ) <$> inv.describe o).mapNotes (·.renumbered σ) := by
  cases o with
  | compiled c => rfl
  | declared source ns c =>
    have hresolve : inv'.resolve (σ source) c.typeParams = inv.resolve source c.typeParams :=
      funext (h.resolve source c.typeParams)
    have hclass (resolve : Source.TypeExpr → Noted Problem TypeRef) :
        Descriptor.ofClass resolve (σ source) ns c =
          (·.renumbered σ) <$> Descriptor.ofClass resolve source ns c := by
      simp [Descriptor.ofClass, Descriptor.renumbered, DeclaredAt.renumbered]
    show (Descriptor.ofClass (inv'.resolve (σ source) c.typeParams) (σ source) ns c).mapNotes _ = _
    rw [hresolve, hclass]
    simp [Inventory.describe, Noted.ext_iff, Function.comp_def, SourceProblem.renumbered]

/-- The types in the order of their names are the same in both orders of the sources. -/
theorem Renumbered.sorted {inv inv' : Inventory} (h : inv.Renumbered σ inv') :
    inv'.sorted = inv.sorted.map fun o => (o.1, o.2.renumbered σ) := by
  have hnames : (Bindings.names inv'.origins).Nodup :=
    ((h.origins.map Prod.fst).trans
      (.of_eq (by simp [Bindings.names, Function.comp_def]))).nodup_iff.2 h.nodup
  have hmap : inv.sorted.map (fun o => (o.1, o.2.renumbered σ)) =
      (inv.origins.map fun o => (o.1, o.2.renumbered σ)).mergeSort fun a b => a.1 ≤ b.1 :=
    List.map_mergeSort fun _ _ _ _ => rfl
  rw [hmap]
  refine mergeSort_eq_of_perm (fun a b c hab hbc => ?_) (fun a b => ?_) h.origins
    fun a ha b hb hab hba => ?_
  · exact decide_eq_true (String.le_trans (of_decide_eq_true hab) (of_decide_eq_true hbc))
  · simpa using String.le_total a.1 b.1
  · have he : a.1 = b.1 := String.le_antisymm (of_decide_eq_true hab) (of_decide_eq_true hba)
    exact List.inj_on_of_nodup_map hnames ha hb he

/-! ### Names of descriptors -/

/-- The name of a type, from where it comes. -/
def originName : Origin → String
  | .declared _ ns c => Name.qualify ns c.name
  | .compiled c => c.qualified

theorem describe_qualified (inv : Inventory) (o : Origin) :
    (inv.describe o).value.qualified = originName o := by
  cases o <;> rfl

theorem forall_addDeclared {P : String × Origin → Prop}
    {entries : List (String × Nat × String × Source.Class)} {origins : List (String × Origin)}
    (ho : ∀ o ∈ origins, P o) (he : ∀ e ∈ entries, P (declaredOrigin e)) :
    ∀ o ∈ (entries.foldlM
      (fun origins (name, source, ns, c) => addDeclared origins name source ns c) origins).value,
      P o := by
  induction entries generalizing origins with
  | nil => exact ho
  | cons e rest ih =>
    obtain ⟨name, source, ns, c⟩ := e
    rw [List.foldlM_cons, Noted.bind_value]
    refine ih (fun o hmem => ?_) fun e h => he e (List.mem_cons_of_mem _ h)
    dsimp only [addDeclared] at hmem
    split at hmem
    · exact ho o hmem
    · rcases List.mem_append.1 hmem with hmem | hmem
      · exact ho o hmem
      · cases List.mem_singleton.1 hmem
        exact he _ List.mem_cons_self

theorem forall_addCompiled {P : String × Origin → Prop} {compiled : List CompiledType}
    {origins : List (String × Origin)} (ho : ∀ o ∈ origins, P o)
    (hc : ∀ c ∈ compiled, P (c.qualified, .compiled c)) :
    ∀ o ∈ compiled.foldl addCompiled origins, P o := by
  induction compiled generalizing origins with
  | nil => exact ho
  | cons c rest ih =>
    refine ih (fun o hmem => ?_) fun c h => hc c (List.mem_cons_of_mem _ h)
    unfold addCompiled at hmem
    split at hmem
    · exact ho o hmem
    · rcases List.mem_append.1 hmem with hmem | hmem
      · exact ho o hmem
      · cases List.mem_singleton.1 hmem
        exact hc _ List.mem_cons_self

/-- What holds of every class and of every compiled type holds of all types of a pass. -/
theorem forall_ofSources {P : String × Origin → Prop} {files : List SourceFile}
    {compiled : List CompiledType} (hd : ∀ e ∈ declarations files, P (declaredOrigin e))
    (hc : ∀ c ∈ compiled, P (c.qualified, .compiled c)) :
    ∀ o ∈ (ofSources files compiled).value.origins, P o :=
  forall_addCompiled (forall_addDeclared (List.forall_mem_nil _) hd) hc

/-- A pass knows a type by its qualified name. -/
theorem ofSources_named (files : List SourceFile) (compiled : List CompiledType) :
    ∀ o ∈ (ofSources files compiled).value.origins, originName o.2 = o.1 := by
  refine forall_ofSources (fun e he => ?_) fun c _ => rfl
  obtain ⟨f, -, he⟩ := List.mem_flatMap.1 he
  obtain ⟨c, -, rfl⟩ := List.mem_map.1 he
  rfl

end Inventory

/-! ### Passes -/

/-- Two passes that know the same, up to the numbers of the sources. -/
structure Compilation.Renumbered (c c' : Compilation) : Prop where
  inventory : c.toInventory.Renumbered σ c'.toInventory
  types : c'.types = c.types.map fun t => (t.1, t.2.renumbered σ)

namespace Compilation
variable {σ}

theorem ofSources_types (files : List SourceFile) (compiled : List CompiledType) :
    let inv := (Inventory.ofSources files compiled).value
    (ofSources files compiled).types =
      inv.sorted.map fun o => (o.1, (inv.describe o.2).value) := by
  intro inv
  exact Noted.mapM_value ..

theorem ofSources_renumbered {files files' : List SourceFile} (h : Reordered σ files files')
    (compiled : List CompiledType) (hd : ((Inventory.declarations files).map (·.1)).Nodup) :
    (ofSources files compiled).Renumbered σ (ofSources files' compiled) ∧
      (ofSources files' compiled).problems =
        (ofSources files compiled).problems.map (·.renumbered σ) := by
  obtain ⟨hn, hn', hinv⟩ := Inventory.ofSources_renumbered h compiled hd
  refine ⟨⟨hinv, ?_⟩, ?_⟩
  · rw [ofSources_types, ofSources_types, hinv.sorted, List.map_map, List.map_map]
    congr 1
    funext o
    simp only [Function.comp_apply, hinv.describe]
    rfl
  · show (Inventory.ofSources files' compiled).notes ++ _ =
      ((Inventory.ofSources files compiled).notes ++ _).map _
    rw [hn, hn', List.nil_append, List.nil_append, Noted.mapM_notes, Noted.mapM_notes, hinv.sorted,
      List.flatMap_map, List.map_flatMap]
    congr 1
    funext o
    simp [hinv.describe]

theorem types_qualified {files : List SourceFile} {compiled : List CompiledType} :
    ∀ t ∈ (ofSources files compiled).types, t.2.qualified = t.1 := by
  intro t ht
  rw [ofSources_types] at ht
  obtain ⟨o, ho, rfl⟩ := List.mem_map.1 ht
  rw [Inventory.describe_qualified]
  exact Inventory.ofSources_named files compiled o (List.mem_mergeSort.1 ho)

theorem descriptorNamed?_qualified {files : List SourceFile} {compiled : List CompiledType}
    {name : String} {d : Descriptor}
    (h : (ofSources files compiled).descriptorNamed? name = some d) : d.qualified = name :=
  types_qualified _ (Bindings.mem_of_get? h)

theorem descriptorNamed?_eq (files : List SourceFile) (compiled : List CompiledType)
    (name : String) :
    let inv := (Inventory.ofSources files compiled).value
    (ofSources files compiled).descriptorNamed? name =
      (inv.origin? name).map fun o => (inv.describe o).value := by
  intro inv
  have hsorted : Bindings.get? inv.sorted name = inv.origin? name :=
    Bindings.get?_perm (List.mergeSort_perm ..) (Inventory.ofSources_nodup files compiled) name
  unfold descriptorNamed?
  rw [ofSources_types, ← hsorted]
  exact Bindings.get?_map (fun o => (inv.describe o).value) inv.sorted name

/-- A name that is declared has the descriptor of its first declaration. -/
theorem descriptorNamed?_first {files : List SourceFile} (compiled : List CompiledType)
    {name : String} {source : Nat} {ns : String} {cls : Source.Class}
    (h : Bindings.get? (Inventory.declarations files) name = some (source, ns, cls)) :
    let inv := (Inventory.ofSources files compiled).value
    (ofSources files compiled).descriptorNamed? name =
      some (inv.describe (.declared source ns cls)).value := by
  intro inv
  rw [descriptorNamed?_eq, Inventory.origin?_declared compiled h]
  rfl

/-- A declared class is known by the descriptor of its own declaration. -/
theorem descriptorNamed?_declared {files : List SourceFile} (compiled : List CompiledType)
    (hd : ((Inventory.declarations files).map (·.1)).Nodup)
    {e : String × Nat × String × Source.Class} (he : e ∈ Inventory.declarations files) :
    ∃ d a, (ofSources files compiled).descriptorNamed? e.1 = some d ∧ d.declared = some a ∧
      a.source = e.2.1 :=
  ⟨_, _, descriptorNamed?_first compiled (Bindings.get?_of_mem hd he), rfl, rfl⟩

section
variable {c c' : Compilation} (h : c.Renumbered σ c')
include h

theorem Renumbered.descriptorNamed? (name : String) :
    c'.descriptorNamed? name = (c.descriptorNamed? name).map (·.renumbered σ) := by
  unfold Compilation.descriptorNamed?
  rw [h.types]
  exact Bindings.get?_map ..

/-- Whatever a factory asks of a pass, both answer alike. -/
theorem Renumbered.agree (i : Nat) : c.Agree c' i (σ i) where
  resolve := h.inventory.resolve i
  outline t := by
    show (c'.descriptorNamed? _).map _ = (c.descriptorNamed? _).map _
    rw [h.descriptorNamed?, Option.map_map]
    rfl

end

end Compilation
end StagedMapping
