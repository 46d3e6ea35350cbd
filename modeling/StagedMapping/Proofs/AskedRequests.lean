import Mathlib
import StagedMapping.Proofs.RequestOrder

/-! What decorators ask for. The classes that stand in the source where their name is declared
first ask, decorator by decorator, for maps to the type of that name (`Compilation.asked`). The
requests of a pass are these, and of several for one pair of types the first
(`Compilation.mem_discover`). A class need not own its name to ask: another one before it in the
same source may. So requests come from the decorators of owners exactly if the later classes of a
name, in the source of its owner, name no other types than the owner does
(`Compilation.discover_owned_iff`). -/
namespace StagedMapping

/-! ### The first of each pair -/

namespace MapRequest

theorem samePair_iff {r s : MapRequest} :
    r.samePair s = true ↔ r.target.key = s.target.key ∧ r.source.key = s.source.key := by
  simp [samePair, Descriptor.sameType]

/-- Adds a request, if there is none for its pair of types. -/
def keep (kept : List MapRequest) (r : MapRequest) : List MapRequest :=
  if kept.any (·.samePair r) then kept else kept ++ [r]

/-- Of the requests for a pair of types, the first is kept. -/
theorem mem_foldl_keep {asked kept : List MapRequest} {r : MapRequest} :
    r ∈ asked.foldl keep kept ↔
      r ∈ kept ∨ kept.any (·.samePair r) = false ∧ asked.find? (·.samePair r) = some r := by
  induction asked generalizing kept with
  | nil => simp
  | cons a rest ih =>
    rw [List.foldl_cons, ih, List.find?_cons, keep]
    by_cases hpair : a.samePair r = true
    · -- then a request is of the pair of `r` exactly if it is of that of `a`
      have hsame (k : MapRequest) : k.samePair a = k.samePair r := by
        have := samePair_iff.1 hpair
        simp [samePair, Descriptor.sameType, this]
      simp only [hpair, hsame]
      cases hkept : kept.any (·.samePair r) with
      | true => simp [hkept]
      | false => simp [hkept, hpair, eq_comm]
    · have hself : r ≠ a := fun he => hpair (samePair_iff.2 (by simp [he]))
      simp only [hpair]
      split <;> simp [hpair, hself]

end MapRequest

namespace Compilation
variable (c : Compilation)

/-! ### What a class asks for -/

/-- What a decorator asks for, if it names a type of the pass. -/
def request? (source : Nat) (target : Descriptor) (declared : DeclaredAt) (d : Source.Decorator) :
    Option MapRequest :=
  if d.name = Convention.mapDecorator then
    (c.decoratedSource source d).value.map fun found => ⟨found, target, declared, d.span⟩
  else none

/-- What the decorators of a class ask for, in order. -/
def classAsked (e : String × Nat × String × Source.Class) : List MapRequest :=
  match c.descriptorNamed? e.1 with
  | none => []
  | some target =>
    match target.declared with
    | none => []
    | some declared =>
      if declared.source = e.2.1 then
        e.2.2.2.decorators.filterMap (c.request? e.2.1 target declared)
      else []

/-- What the classes of a pass ask for. -/
def asked : List MapRequest := (Inventory.declarations c.files).flatMap c.classAsked

variable {c}

theorem addRequest_value (source : Nat) (target : Descriptor) (declared : DeclaredAt)
    (kept : List MapRequest) (d : Source.Decorator) :
    (c.addRequest source target declared kept d).value =
      (c.request? source target declared d).toList.foldl MapRequest.keep kept := by
  unfold addRequest request?
  by_cases hname : d.name = Convention.mapDecorator
  · rw [if_neg (not_not.2 hname), if_pos hname, Noted.bind_value]
    cases (c.decoratedSource source d).value <;> rfl
  · rw [if_pos hname, if_neg hname]
    rfl

theorem addClass_eq (kept : List MapRequest) (e : String × Nat × String × Source.Class) :
    c.addClass kept e =
      match c.descriptorNamed? e.1 with
      | none => pure kept
      | some target =>
        match target.declared with
        | none => pure kept
        | some declared =>
          if declared.source = e.2.1 then
            e.2.2.2.decorators.foldlM (c.addRequest e.2.1 target declared) kept
          else pure kept := rfl

theorem addClass_value (kept : List MapRequest) (e : String × Nat × String × Source.Class) :
    (c.addClass kept e).value = (c.classAsked e).foldl MapRequest.keep kept := by
  have hrun (source : Nat) (target : Descriptor) (declared : DeclaredAt)
      (ds : List Source.Decorator) (kept : List MapRequest) :
      (ds.foldlM (c.addRequest source target declared) kept).value =
        (ds.filterMap (c.request? source target declared)).foldl MapRequest.keep kept := by
    induction ds generalizing kept with
    | nil => rfl
    | cons d rest ih =>
      rw [List.foldlM_cons, Noted.bind_value, ih, addRequest_value, List.filterMap_cons]
      cases c.request? source target declared d <;> rfl
  rw [addClass_eq, classAsked]
  cases c.descriptorNamed? e.1 with
  | none => rfl
  | some target =>
    dsimp only
    cases target.declared with
    | none => rfl
    | some declared =>
      dsimp only
      split
      · exact hrun ..
      · rfl

theorem discover_value : c.discover.value = c.asked.foldl MapRequest.keep [] := by
  have hrun (entries : List (String × Nat × String × Source.Class)) (kept : List MapRequest) :
      (entries.foldlM c.addClass kept).value =
        (entries.flatMap c.classAsked).foldl MapRequest.keep kept := by
    induction entries generalizing kept with
    | nil => rfl
    | cons e rest ih =>
      rw [List.foldlM_cons, Noted.bind_value, ih, addClass_value, List.flatMap_cons,
        List.foldl_append]
  exact hrun ..

/-- The requests of a pass are the first that are asked for of each pair of types. -/
theorem mem_discover {r : MapRequest} :
    r ∈ c.discover.value ↔ c.asked.find? (·.samePair r) = some r := by
  rw [discover_value, MapRequest.mem_foldl_keep]
  simp

theorem request?_eq_some {source : Nat} {target : Descriptor} {declared : DeclaredAt}
    {d : Source.Decorator} {r : MapRequest} : c.request? source target declared d = some r ↔
      d.name = Convention.mapDecorator ∧ (c.decoratedSource source d).value = some r.source ∧
        r.target = target ∧ r.declared = declared ∧ r.span = d.span := by
  unfold request?
  by_cases hname : d.name = Convention.mapDecorator
  · rw [if_pos hname, Option.map_eq_some_iff]
    constructor
    · rintro ⟨found, hfound, rfl⟩
      exact ⟨hname, hfound, rfl, rfl, rfl⟩
    · rintro ⟨-, hfound, rfl, rfl, hspan⟩
      exact ⟨_, hfound, by rw [← hspan]⟩
  · simp [hname]

end Compilation

/-! ### Owners -/

namespace Compilation

/-- The name of a class stands for it in a pass. -/
def Owns (c : Compilation) (e : String × Nat × String × Source.Class) : Prop :=
  c.origin? e.1 = some (Inventory.declaredOrigin e).2

/-- The descriptor of a class. -/
def descriptorOf (c : Compilation) (e : String × Nat × String × Source.Class) : Descriptor :=
  (c.describe (Inventory.declaredOrigin e).2).value

/-- A request for the type that a class declares comes from a decorator of a class of its name
in the same source. -/
structure AskedBy (c : Compilation) (owner e : String × Nat × String × Source.Class)
    (r : MapRequest) : Prop where
  target : r.target = c.descriptorOf owner
  declared : r.declared = ⟨owner.2.1, owner.2.2.2.span⟩
  name : e.1 = owner.1
  source : e.2.1 = owner.2.1
  decorator : ∃ d ∈ e.2.2.2.decorators, d.name = Convention.mapDecorator ∧
    (c.decoratedSource e.2.1 d).value = some r.source ∧ r.span = d.span

/-- The types that the decorators of a class name as sources. -/
def sourcesNamed (c : Compilation) (e : String × Nat × String × Source.Class) : List Descriptor :=
  (e.2.2.2.decorators.filter (·.name == Convention.mapDecorator)).filterMap fun d =>
    (c.decoratedSource e.2.1 d).value

theorem mem_sourcesNamed {c : Compilation} {e : String × Nat × String × Source.Class}
    {s : Descriptor} : s ∈ c.sourcesNamed e ↔ ∃ d ∈ e.2.2.2.decorators,
      d.name = Convention.mapDecorator ∧ (c.decoratedSource e.2.1 d).value = some s := by
  simp [sourcesNamed, and_assoc]

theorem Owns.unique {c : Compilation} {a b : String × Nat × String × Source.Class} (ha : c.Owns a)
    (hb : c.Owns b) (h : a.1 = b.1) : a = b := by
  have hsame := Option.some.inj (ha.symm.trans ((congrArg c.origin? h).trans hb))
  obtain ⟨hsource, hns, hclass⟩ := Origin.declared.inj hsame
  exact Prod.ext h (Prod.ext hsource (Prod.ext hns hclass))

section
variable {files : List SourceFile} {compiled : List CompiledType}

/-- A class owns its name, or another before it does. -/
theorem exists_owner (compiled : List CompiledType)
    {before after : List (String × Nat × String × Source.Class)}
    {e : String × Nat × String × Source.Class}
    (h : Inventory.declarations files = before ++ e :: after) :
    (ofSources files compiled).Owns e ∨
      ∃ owner ∈ before, owner.1 = e.1 ∧ (ofSources files compiled).Owns owner := by
  have hget : Bindings.get? (Inventory.declarations files) e.1 =
      (Bindings.get? before e.1).or (some e.2) := by
    rw [h, Bindings.get?_append, Bindings.get?_cons, if_pos (by simp)]
  cases hbefore : Bindings.get? before e.1 with
  | none =>
    rw [hbefore] at hget
    exact .inl (Inventory.origin?_declared compiled hget)
  | some first =>
    rw [hbefore] at hget
    exact .inr ⟨_, Bindings.mem_of_get? hbefore, rfl, Inventory.origin?_declared compiled hget⟩

theorem Owns.descriptorNamed? {e : String × Nat × String × Source.Class}
    (h : (ofSources files compiled).Owns e) : (ofSources files compiled).descriptorNamed? e.1 =
      some ((ofSources files compiled).descriptorOf e) :=
  (descriptorNamed?_eq files compiled e.1).trans (congrArg _ h)

theorem Owns.qualified {e : String × Nat × String × Source.Class}
    (h : (ofSources files compiled).Owns e) :
    ((ofSources files compiled).descriptorOf e).qualified = e.1 :=
  descriptorNamed?_qualified h.descriptorNamed?

/-- A class asks for the type of its name, if it stands in the source of the owner. -/
theorem mem_classAsked {e : String × Nat × String × Source.Class}
    (he : e ∈ Inventory.declarations files) {r : MapRequest} :
    r ∈ (ofSources files compiled).classAsked e ↔ ∃ owner ∈ Inventory.declarations files,
      (ofSources files compiled).Owns owner ∧ (ofSources files compiled).AskedBy owner e r := by
  obtain ⟨owner, howner, hname, howns⟩ : ∃ owner ∈ Inventory.declarations files,
      owner.1 = e.1 ∧ (ofSources files compiled).Owns owner := by
    obtain ⟨before, after, hsplit⟩ := List.append_of_mem he
    rcases exists_owner compiled hsplit with howns | ⟨owner, hmem, hname, howns⟩
    · exact ⟨e, he, rfl, howns⟩
    · exact ⟨owner, hsplit ▸ List.mem_append_left _ hmem, hname, howns⟩
  have hasked : r ∈ (ofSources files compiled).classAsked e ↔ owner.2.1 = e.2.1 ∧
      ∃ d ∈ e.2.2.2.decorators, (ofSources files compiled).request? e.2.1
        ((ofSources files compiled).descriptorOf owner) ⟨owner.2.1, owner.2.2.2.span⟩ d =
          some r := by
    unfold classAsked
    rw [← hname, howns.descriptorNamed?]
    show r ∈ (if owner.2.1 = e.2.1 then _ else _) ↔ _
    split <;> simp_all
  rw [hasked]
  constructor
  · rintro ⟨hsource, d, hd, hrequest⟩
    obtain ⟨hmap, hfound, htarget, hdeclared, hspan⟩ := request?_eq_some.1 hrequest
    exact ⟨owner, howner, howns, htarget, hdeclared, hname.symm, hsource.symm,
      d, hd, hmap, hfound, hspan⟩
  · rintro ⟨other, -, hother, htarget, hdeclared, hsame, hsource, d, hd, hmap, hfound, hspan⟩
    cases howns.unique hother (hname.trans hsame)
    exact ⟨hsource.symm, d, hd, request?_eq_some.2 ⟨hmap, hfound, htarget, hdeclared, hspan⟩⟩

/-- A class in the source of the owner of its name asks for maps from all the types it names. -/
theorem exists_asked {owner e : String × Nat × String × Source.Class}
    (howner : owner ∈ Inventory.declarations files) (howns : (ofSources files compiled).Owns owner)
    (he : e ∈ Inventory.declarations files) (hname : e.1 = owner.1) (hsource : e.2.1 = owner.2.1)
    {s : Descriptor} (hs : s ∈ (ofSources files compiled).sourcesNamed e) :
    ∃ r ∈ (ofSources files compiled).classAsked e, r.source = s ∧
      r.target = (ofSources files compiled).descriptorOf owner := by
  obtain ⟨d, hd, hmap, hfound⟩ := mem_sourcesNamed.1 hs
  refine ⟨⟨s, _, ⟨owner.2.1, owner.2.2.2.span⟩, d.span⟩, ?_, rfl, rfl⟩
  exact (mem_classAsked he).2 ⟨owner, howner, howns, rfl, rfl, hname, hsource,
    d, hd, hmap, hfound, rfl⟩

/-- A source that a decorator names is what its own name stands for. -/
theorem decoratedSource_known {source : Nat} {d : Source.Decorator} {s : Descriptor}
    (h : ((ofSources files compiled).decoratedSource source d).value = some s) :
    (ofSources files compiled).descriptorNamed? s.qualified = some s := by
  unfold decoratedSource at h
  split at h
  · have hknown : (ofSources files compiled).descriptorNamed? _ = some s := h
    rw [descriptorNamed?_qualified hknown]
    exact hknown
  · cases h

/-- The types of what a class asks for are those that their names stand for. -/
theorem classAsked_known {e : String × Nat × String × Source.Class}
    (he : e ∈ Inventory.declarations files) {r : MapRequest}
    (hr : r ∈ (ofSources files compiled).classAsked e) :
    (ofSources files compiled).descriptorNamed? r.target.qualified = some r.target ∧
      (ofSources files compiled).descriptorNamed? r.source.qualified = some r.source := by
  obtain ⟨owner, -, howns, hby⟩ := (mem_classAsked he).1 hr
  obtain ⟨d, -, -, hfound, -⟩ := hby.decorator
  refine ⟨?_, decoratedSource_known hfound⟩
  rw [hby.target, howns.qualified]
  exact howns.descriptorNamed?

/-- A request is asked for by a class, and nothing of its pair by a class before that. -/
theorem exists_asking {r : MapRequest} (hr : r ∈ (ofSources files compiled).discover.value) :
    ∃ before e after, Inventory.declarations files = before ++ e :: after ∧
      r ∈ (ofSources files compiled).classAsked e ∧
      ∀ f ∈ before, ∀ s ∈ (ofSources files compiled).classAsked f, s.samePair r = false := by
  have hfirst := mem_discover.1 hr
  rw [asked, List.find?_flatMap] at hfirst
  obtain ⟨before, e, after, hsplit, hfind, hnone⟩ := List.findSome?_eq_some_iff.1 hfirst
  refine ⟨before, e, after, hsplit, List.mem_of_find?_eq_some hfind, fun f hf s hs => ?_⟩
  exact Bool.eq_false_iff.2 (List.find?_eq_none.1 (hnone f hf) s hs)

/-- What a class asks for is requested, by the first that asks for it. -/
theorem exists_request {e : String × Nat × String × Source.Class}
    (he : e ∈ Inventory.declarations files) {r : MapRequest}
    (hr : r ∈ (ofSources files compiled).classAsked e) :
    ∃ s ∈ (ofSources files compiled).discover.value,
      s.target = r.target ∧ s.source = r.source := by
  have hasked : r ∈ (ofSources files compiled).asked := List.mem_flatMap.2 ⟨e, he, hr⟩
  have hsome : ((ofSources files compiled).asked.find? (·.samePair r)).isSome = true := by
    rw [List.find?_isSome]
    exact ⟨r, hasked, MapRequest.samePair_iff.2 ⟨rfl, rfl⟩⟩
  obtain ⟨s, hs⟩ := Option.isSome_iff_exists.1 hsome
  obtain ⟨f, hf, hsf⟩ := List.mem_flatMap.1 (List.mem_of_find?_eq_some hs)
  have hfound := List.find?_some hs
  have hpair : s.samePair r = true := hfound
  obtain ⟨htarget, hsource⟩ := MapRequest.samePair_iff.1 hpair
  obtain ⟨hts, hss⟩ := classAsked_known hf hsf
  obtain ⟨htr, hsr⟩ := classAsked_known he hr
  have ht : s.target = r.target := by
    rw [Descriptor.qualified, htarget] at hts
    exact Option.some.inj (hts.symm.trans htr)
  have hsrc : s.source = r.source := by
    rw [Descriptor.qualified, hsource] at hss
    exact Option.some.inj (hss.symm.trans hsr)
  refine ⟨s, mem_discover.2 ?_, ht, hsrc⟩
  simpa only [MapRequest.samePair, ht, hsrc] using hs

end

/-- Every request is for the type that its owner declares, and comes from a decorator of a class of
that name in the owner's source; no two are for the same types. All come from the owners themselves
exactly if no other class of the name of an owner, in its source, names a type as a source that the
owner does not. -/
theorem discover_owned_iff (files : List SourceFile) (compiled : List CompiledType) :
    let c := ofSources files compiled
    let classes := Inventory.declarations files
    (∀ r ∈ c.discover.value, ∃ owner ∈ classes, c.Owns owner ∧
      ∃ e ∈ classes, c.AskedBy owner e r) ∧
    (c.discover.value.Pairwise fun r s =>
      ¬ (r.source.key = s.source.key ∧ r.target.key = s.target.key)) ∧
    ((∀ r ∈ c.discover.value, ∃ owner ∈ classes, c.Owns owner ∧ c.AskedBy owner owner r) ↔
      ∀ owner ∈ classes, c.Owns owner → ∀ e ∈ classes, e.1 = owner.1 → e.2.1 = owner.2.1 →
        c.sourcesNamed e ⊆ c.sourcesNamed owner) := by
  intro c classes
  have hmem {before e after} (h : Inventory.declarations files = before ++ e :: after) :
      e ∈ classes := by
    show e ∈ Inventory.declarations files
    rw [h]
    exact List.mem_append_right _ List.mem_cons_self
  refine ⟨fun r hr => ?_, ?_, fun hall owner howner howns e he hname hsource s hs => ?_,
    fun hnamed r hr => ?_⟩
  · obtain ⟨before, e, after, hsplit, hasked, -⟩ := exists_asking hr
    have he : e ∈ classes := hmem hsplit
    obtain ⟨owner, howner, howns, hby⟩ := (mem_classAsked he).1 hasked
    exact ⟨owner, howner, howns, e, he, hby⟩
  · refine (discover_pairwise c).imp fun hpair hsame => ?_
    rw [MapRequest.samePair_iff.2 hsame.symm] at hpair
    cases hpair
  · -- the request for this source and for what the owner declares comes from the owner
    obtain ⟨k, hk, rfl, hktarget⟩ := exists_asked howner howns he hname hsource hs
    obtain ⟨r, hr, htarget, hrsource⟩ := exists_request he hk
    obtain ⟨other, -, hother, hby⟩ := hall r hr
    have hsame : other = owner := by
      refine hother.unique howns ?_
      rw [← hother.qualified, ← howns.qualified, ← hby.target, htarget, hktarget]
    subst hsame
    obtain ⟨d, hd, hmap, hfound, -⟩ := hby.decorator
    exact mem_sourcesNamed.2 ⟨d, hd, hmap, hrsource ▸ hfound⟩
  · obtain ⟨before, e, after, hsplit, hasked, hfirst⟩ := exists_asking hr
    have he : e ∈ classes := hmem hsplit
    obtain ⟨owner, howner, howns, hby⟩ := (mem_classAsked he).1 hasked
    rcases exists_owner compiled hsplit with hself | ⟨other, hbefore, hname, hother⟩
    · cases howns.unique hself hby.name.symm
      exact ⟨_, he, hself, hby⟩
    · -- the owner stands before, and names the source too, so it would have asked for this
      cases howns.unique hother (hby.name.symm.trans hname.symm)
      obtain ⟨d, hd, hmap, hfound, -⟩ := hby.decorator
      have hs := hnamed owner howner howns e he hby.name hby.source
        (mem_sourcesNamed.2 ⟨d, hd, hmap, hfound⟩)
      obtain ⟨k, hk, hksource, hktarget⟩ := exists_asked howner howns howner rfl rfl hs
      have hnone := hfirst owner hbefore k hk
      rw [MapRequest.samePair_iff.2 ⟨by rw [hktarget, hby.target], by rw [hksource]⟩] at hnone
      cases hnone

end Compilation

/-- A class that is declared twice, of which only the second is mapped. -/
def Sample.declaredTwice : List Input :=
  [⟨"m", "class S:\n pass\nclass D:\n pass\n@map_from(S)\nclass D:\n pass\n"⟩]

/-- A request that no decorator of the class asks for that owns the name of its target. -/
theorem Compilation.discover_unowned : ∃ files, readSources Sample.declaredTwice = .ok files ∧
    ∃ r ∈ (ofSources files []).discover.value, ¬ ∃ owner ∈ Inventory.declarations files,
      (ofSources files []).Owns owner ∧ (ofSources files []).AskedBy owner owner r := by
  obtain ⟨files, r, cls, hread, hr, hname, horigin, hnone⟩ : ∃ files r cls,
      readSources Sample.declaredTwice = .ok files ∧
        (ofSources files []).discover.value = [r] ∧ r.target.qualified = "D" ∧
        (ofSources files []).origin? "D" = some (.declared 0 "" cls) ∧ cls.decorators = [] := by
    refine ⟨?files, ?r, ?cls, ?hread, ?hr, ?hname, ?horigin, ?hnone⟩
    case hread =>
      refine @readSources_single _ _ _ ?content rfl ?parsed
      case parsed =>
        rw [Source.Module.parse, lex, String.toList_ofList]
        cbv
        rfl
    case hr =>
      cbv
      rfl
    case hname => rfl
    case horigin =>
      cbv
      rfl
    case hnone => rfl
  refine ⟨files, hread, r, hr ▸ List.mem_cons_self, ?_⟩
  rintro ⟨owner, -, howns, hby⟩
  have howner : owner.1 = "D" := by rw [← howns.qualified, ← hby.target, hname]
  obtain ⟨d, hd, -⟩ := hby.decorator
  rw [Owns, howner, horigin] at howns
  obtain ⟨-, -, hcls⟩ := Origin.declared.inj (Option.some.inj howns)
  rw [← hcls, hnone] at hd
  cases hd

end StagedMapping
