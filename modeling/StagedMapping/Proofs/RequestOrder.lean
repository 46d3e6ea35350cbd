import StagedMapping.Proofs.Renumbering

/-! Requests in another order of the sources. If no type is declared twice, each class makes
its requests by itself, so the requests of a pass are those of its classes one after the
other (`Compilation.discover_eq`). Another order of the sources gives the same requests in
another order, and the mappings that they ask for are the same but for the places in which
their targets are declared. -/
namespace StagedMapping

namespace Compilation

/-! ### The requests of one class -/

section
variable (c : Compilation) (source : Nat) (target : Descriptor) (declared : DeclaredAt)

/-- Requests for other targets do not meet those of a decorator. -/
theorem addRequest_append {others : List MapRequest}
    (ho : ∀ r ∈ others, r.target.qualified ≠ target.qualified) (own : List MapRequest)
    (d : Source.Decorator) : c.addRequest source target declared (others ++ own) d =
      (others ++ ·) <$> c.addRequest source target declared own d := by
  unfold addRequest
  by_cases hd : d.name ≠ Convention.mapDecorator
  · rw [if_pos hd, if_pos hd]
    rfl
  · rw [if_neg hd, if_neg hd]
    dsimp only
    have hother (found : Descriptor) :
        others.any (·.samePair ⟨found, target, declared, d.span⟩) = false := by
      rw [List.any_eq_false]
      intro r hr hsame
      simp only [MapRequest.samePair, Descriptor.sameType, Bool.and_eq_true, beq_iff_eq] at hsame
      exact ho r hr (congrArg TypeKey.qualified hsame.1)
    rw [map_bind]
    congr 1
    funext found
    cases found with
    | none => rfl
    | some found =>
      simp only [List.any_append, hother, Bool.false_or, map_pure]
      split
      · rfl
      · rw [List.append_assoc]

theorem addRequests_append {others : List MapRequest}
    (ho : ∀ r ∈ others, r.target.qualified ≠ target.qualified) (own : List MapRequest)
    (ds : List Source.Decorator) :
    ds.foldlM (c.addRequest source target declared) (others ++ own) =
      (others ++ ·) <$> ds.foldlM (c.addRequest source target declared) own := by
  induction ds generalizing own with
  | nil => rfl
  | cons d rest ih =>
    simp only [List.foldlM_cons, addRequest_append c source target declared ho, map_bind,
      bind_map_left, ih]

/-- All that a decorator can do. -/
theorem addRequest_cases (own : List MapRequest) (d : Source.Decorator) :
    (c.addRequest source target declared own d).value = own ∨
      ∃ found span, (c.decoratedSource source d).value = some found ∧
        own.any (·.samePair ⟨found, target, declared, span⟩) = false ∧
        (c.addRequest source target declared own d).value =
          own ++ [⟨found, target, declared, span⟩] := by
  unfold addRequest
  split
  · exact .inl rfl
  · simp only [Noted.bind_value]
    cases hfound : (c.decoratedSource source d).value with
    | none => exact .inl rfl
    | some found =>
      dsimp only [Noted.pure_value]
      split
      · exact .inl rfl
      · next hnew => exact .inr ⟨found, d.span, rfl, by simpa using hnew, rfl⟩

/-- What every step keeps holds of all requests of a class. -/
theorem addRequests_invariant {P : List MapRequest → Prop} {own : List MapRequest} (hown : P own)
    {ds : List Source.Decorator}
    (hstep : ∀ own found span, ∀ d ∈ ds, P own → (c.decoratedSource source d).value = some found →
      own.any (·.samePair ⟨found, target, declared, span⟩) = false →
      P (own ++ [⟨found, target, declared, span⟩])) :
    P (ds.foldlM (c.addRequest source target declared) own).value := by
  induction ds generalizing own with
  | nil => exact hown
  | cons d rest ih =>
    rw [List.foldlM_cons, Noted.bind_value]
    refine ih ?_ fun own found span d hd => hstep own found span d (List.mem_cons_of_mem _ hd)
    rcases c.addRequest_cases source target declared own d with h | ⟨found, span, hfound, hnew, h⟩
    · rwa [h]
    · rw [h]
      exact hstep own found span d List.mem_cons_self hown hfound hnew

end

/-! ### The requests of a pass -/

/-- What is known of a request: a decorator of a class names its source, and its target is a
class of the pass. -/
structure Requested (c : Compilation) (r : MapRequest) : Prop where
  source : ∃ e ∈ Inventory.declarations c.files, ∃ d ∈ e.2.2.2.decorators,
    (c.decoratedSource e.2.1 d).value = some r.source
  target : ∃ name, c.descriptorNamed? name = some r.target
  declared : r.target.declared = some r.declared

theorem Requested.source_known {c : Compilation} {r : MapRequest} (h : c.Requested r) :
    ∃ name, c.descriptorNamed? name = some r.source := by
  obtain ⟨e, -, d, -, hsource⟩ := h.source
  unfold decoratedSource at hsource
  split at hsource
  · exact ⟨_, hsource⟩
  · cases hsource

section
variable {c : Compilation} {P : List MapRequest → Prop}
  (hstep : ∀ requests r, P requests → c.Requested r → requests.any (·.samePair r) = false →
    P (requests ++ [r]))
include hstep

theorem addClass_invariant {requests : List MapRequest} (hreq : P requests)
    {e : String × Nat × String × Source.Class} (he : e ∈ Inventory.declarations c.files) :
    P (c.addClass requests e).value := by
  unfold addClass
  dsimp only
  split
  · exact hreq
  · next target htarget =>
    split
    · exact hreq
    · next declared hdeclared =>
      split
      · exact c.addRequests_invariant _ _ _ hreq fun own found span d hd hown hfound hnew =>
          hstep own _ hown ⟨⟨e, he, d, hd, hfound⟩, ⟨e.1, htarget⟩, hdeclared⟩ hnew
      · exact hreq

theorem addClasses_invariant {requests : List MapRequest} (hreq : P requests)
    {entries : List (String × Nat × String × Source.Class)}
    (h : entries ⊆ Inventory.declarations c.files) :
    P (entries.foldlM c.addClass requests).value := by
  induction entries generalizing requests with
  | nil => exact hreq
  | cons e rest ih =>
    obtain ⟨he, hrest⟩ := List.cons_subset.1 h
    rw [List.foldlM_cons, Noted.bind_value]
    exact ih (addClass_invariant hstep hreq he) hrest

/-- What every request keeps that is added holds of all requests of a pass. -/
theorem discover_invariant (hstart : P []) : P c.discover.value :=
  addClasses_invariant hstep hstart (List.Subset.refl _)

end

theorem discover_requested (c : Compilation) : ∀ r ∈ c.discover.value, c.Requested r := by
  refine discover_invariant (P := fun requests => ∀ r ∈ requests, c.Requested r) ?_ (by simp)
  intro requests r hreq hr _ s hs
  rcases List.mem_append.1 hs with hs | hs
  · exact hreq s hs
  · cases List.mem_singleton.1 hs
    exact hr

/-- No pair of types is requested twice. -/
theorem discover_pairwise (c : Compilation) :
    c.discover.value.Pairwise fun r s => r.samePair s = false := by
  refine discover_invariant (P := List.Pairwise fun r s => r.samePair s = false) ?_ .nil
  intro requests r hreq _ hnew
  refine List.pairwise_append.2 ⟨hreq, List.pairwise_singleton .., fun a ha s hs => ?_⟩
  cases List.mem_singleton.1 hs
  simpa using List.any_eq_false.1 hnew a ha

/-! ### Class by class -/

/-- The requests of a class alone. -/
def classRequests (c : Compilation) (e : String × Nat × String × Source.Class) :
    Noted SourceProblem (List MapRequest) :=
  c.addClass [] e

section
variable {c : Compilation}
  (hqual : ∀ name d, c.descriptorNamed? name = some d → d.qualified = name)
include hqual

theorem classRequests_target (e : String × Nat × String × Source.Class) :
    ∀ r ∈ (c.classRequests e).value, r.target.qualified = e.1 := by
  unfold classRequests addClass
  dsimp only
  split
  · simp
  · next target htarget =>
    split
    · simp
    · split
      · refine c.addRequests_invariant _ _ _
          (P := fun requests => ∀ r ∈ requests, r.target.qualified = e.1) (by simp) ?_
        intro own found span d _ hown _ _ r hr
        rcases List.mem_append.1 hr with hr | hr
        · exact hown r hr
        · cases List.mem_singleton.1 hr
          exact hqual _ _ htarget
      · simp

theorem addClass_append {requests : List MapRequest}
    {e : String × Nat × String × Source.Class} (h : ∀ r ∈ requests, r.target.qualified ≠ e.1) :
    c.addClass requests e = (requests ++ ·) <$> c.classRequests e := by
  unfold classRequests addClass
  dsimp only
  split
  · simp
  · next target htarget =>
    split
    · simp
    · split
      · refine Eq.trans ?_ (c.addRequests_append _ target _ (fun r hr => ?_) [] _)
        · rw [List.append_nil]
        · rw [hqual _ _ htarget]
          exact h r hr
      · simp

theorem addClasses_eq {entries : List (String × Nat × String × Source.Class)}
    {requests : List MapRequest} (hd : (entries.map (·.1)).Nodup)
    (h : ∀ r ∈ requests, r.target.qualified ∉ entries.map (·.1)) :
    entries.foldlM c.addClass requests =
      ⟨requests ++ entries.flatMap fun e => (c.classRequests e).value,
        entries.flatMap fun e => (c.classRequests e).notes⟩ := by
  induction entries generalizing requests with
  | nil => simp [Noted.ext_iff]
  | cons e rest ih =>
    obtain ⟨he, hrest⟩ := List.nodup_cons.1 hd
    have hnext : ∀ r ∈ requests ++ (c.classRequests e).value,
        r.target.qualified ∉ rest.map (·.1) := by
      intro r hr
      rcases List.mem_append.1 hr with hr | hr
      · exact fun hmem => h r hr (List.mem_cons_of_mem _ hmem)
      · rwa [classRequests_target hqual e r hr]
    rw [List.foldlM_cons, addClass_append hqual fun r hr he => h r hr (he ▸ List.mem_cons_self),
      bind_map_left]
    simp [Noted.ext_iff, ih hrest hnext]

/-- If no type is declared twice, the requests are those of the classes, one after the
other. -/
theorem discover_eq (hd : ((Inventory.declarations c.files).map (·.1)).Nodup) :
    c.discover = ⟨(Inventory.declarations c.files).flatMap fun e => (c.classRequests e).value,
      (Inventory.declarations c.files).flatMap fun e => (c.classRequests e).notes⟩ :=
  (addClasses_eq hqual hd (by simp)).trans (by simp)

end

end Compilation

/-! ### Another order -/

variable (σ : Nat → Nat)

def MapRequest.renumbered (r : MapRequest) : MapRequest :=
  ⟨r.source.renumbered σ, r.target.renumbered σ, r.declared.renumbered σ, r.span⟩

/-- The mapping of a request, for the pass with other numbers. -/
def Generated.MapUnit.renumbered (u : Generated.MapUnit) : Generated.MapUnit :=
  ⟨u.mapping.moved (u.mapping.declared.renumbered σ), u.plan⟩

namespace Compilation
variable {σ} {c c' : Compilation} (h : c.Renumbered σ c')
include h

theorem Renumbered.decoratedSource (source : Nat) (d : Source.Decorator) :
    c'.decoratedSource (σ source) d = ((Option.map (·.renumbered σ)) <$>
      c.decoratedSource source d).mapNotes (·.renumbered σ) := by
  unfold Compilation.decoratedSource
  split
  · simp [Noted.ext_iff, h.inventory.resolve, descriptor?, h.descriptorNamed?,
      SourceProblem.renumbered]
  · rfl

theorem Renumbered.addRequest (source : Nat) (target : Descriptor) (declared : DeclaredAt)
    (requests : List MapRequest) (d : Source.Decorator) :
    c'.addRequest (σ source) (target.renumbered σ) (declared.renumbered σ)
        (requests.map (·.renumbered σ)) d =
      ((List.map (·.renumbered σ)) <$>
        c.addRequest source target declared requests d).mapNotes (·.renumbered σ) := by
  unfold Compilation.addRequest
  rw [h.decoratedSource]
  split
  · rfl
  · simp only [Noted.mapNotes_map, Noted.mapNotes_bind, map_bind, bind_map_left]
    congr 1
    funext found
    cases found with
    | none => rfl
    | some found =>
      have hany : (requests.map (·.renumbered σ)).any (·.samePair
          ⟨found.renumbered σ, target.renumbered σ, declared.renumbered σ, d.span⟩) =
          requests.any (·.samePair ⟨found, target, declared, d.span⟩) := by
        rw [List.any_map]
        rfl
      dsimp only [Option.map_some]
      rw [hany]
      split
      · rfl
      · simp [MapRequest.renumbered]

theorem Renumbered.classRequests {e : String × Nat × String × Source.Class}
    (he : ∃ d a, c.descriptorNamed? e.1 = some d ∧ d.declared = some a ∧ a.source = e.2.1) :
    c'.classRequests (e.1, σ e.2.1, e.2.2) =
      ((List.map (·.renumbered σ)) <$> c.classRequests e).mapNotes (·.renumbered σ) := by
  obtain ⟨target, a, htarget, ha, hsource⟩ := he
  have hrun (requests : List MapRequest) (ds : List Source.Decorator) :
      ds.foldlM (c'.addRequest (σ e.2.1) (target.renumbered σ) (a.renumbered σ))
          (requests.map (·.renumbered σ)) =
        ((List.map (·.renumbered σ)) <$>
          ds.foldlM (c.addRequest e.2.1 target a) requests).mapNotes (·.renumbered σ) := by
    induction ds generalizing requests with
    | nil => rfl
    | cons d rest ih =>
      simp only [List.foldlM_cons, h.addRequest, Noted.mapNotes_map, Noted.mapNotes_bind, map_bind,
        bind_map_left, ih]
  have hdeclared : (target.renumbered σ).declared = some (a.renumbered σ) := by
    simp [Descriptor.renumbered, ha]
  have hplace : (a.renumbered σ).source = σ e.2.1 := congrArg σ hsource
  unfold Compilation.classRequests addClass
  simp only [h.descriptorNamed?, htarget, Option.map_some, hdeclared, ha, hsource, hplace, if_true]
  exact hrun [] _

/-- The mapping that a request asks for. -/
theorem Renumbered.unit (source target : Descriptor) (a : DeclaredAt) :
    c'.unit (source.renumbered σ) (target.renumbered σ) (a.renumbered σ) =
      ((·.renumbered σ) <$> c.unit source target a).mapNotes (·.moved (σ a.source)) :=
  (c'.unit_declared source target _ _ _).trans (unit_moved (b := a.renumbered σ)
    (h.agree a.source) source target)

end Compilation

namespace Compilation
variable {σ} {files files' : List SourceFile}

/-- In another order of the sources, the same mappings are made in another order. -/
theorem units_reordered (h : Reordered σ files files') (compiled : List CompiledType)
    (hd : ((Inventory.declarations files).map (·.1)).Nodup) :
    let c := ofSources files compiled
    let c' := ofSources files' compiled
    c'.discover.notes.Perm (c.discover.notes.map (·.renumbered σ)) ∧
      (c'.units c'.discover.value).value.Perm
        ((c.units c.discover.value).value.map (·.renumbered σ)) := by
  intro c c'
  have hperm := Inventory.declarations_reordered h
  have hd' : ((Inventory.declarations files').map (·.1)).Nodup :=
    ((hperm.map _).trans (.of_eq (by simp [Function.comp_def]))).nodup_iff.2 hd
  have hc : c.Renumbered σ c' := (ofSources_renumbered h compiled hd).1
  have hclass : ∀ e ∈ Inventory.declarations files, c'.classRequests (e.1, σ e.2.1, e.2.2) =
      ((List.map (·.renumbered σ)) <$> c.classRequests e).mapNotes (·.renumbered σ) :=
    fun e he => hc.classRequests (descriptorNamed?_declared compiled hd he)
  have hdiscover : c.discover = _ := discover_eq (fun _ _ => descriptorNamed?_qualified) hd
  have hdiscover' : c'.discover = _ := discover_eq (fun _ _ => descriptorNamed?_qualified) hd'
  have hnotes : c'.discover.notes.Perm (c.discover.notes.map (·.renumbered σ)) := by
    rw [hdiscover, hdiscover']
    refine (hperm.flatMap_right _).trans (.of_eq ?_)
    rw [List.flatMap_map, List.map_flatMap]
    exact List.flatMap_congr fun e he => by rw [hclass e he]; simp
  have hvalue : c'.discover.value.Perm (c.discover.value.map (·.renumbered σ)) := by
    rw [hdiscover, hdiscover']
    refine (hperm.flatMap_right _).trans (.of_eq ?_)
    rw [List.flatMap_map, List.map_flatMap]
    exact List.flatMap_congr fun e he => by rw [hclass e he]; simp
  refine ⟨hnotes, ?_⟩
  have hunits (c : Compilation) (requests : List MapRequest) : (c.units requests).value =
      requests.map fun r => (c.unit r.source r.target r.declared).value := Noted.mapM_value ..
  rw [hunits, hunits]
  refine (hvalue.map _).trans (.of_eq ?_)
  rw [List.map_map, List.map_map]
  congr 1
  funext r
  exact congrArg (·.value) (hc.unit r.source r.target r.declared)

end Compilation
end StagedMapping
