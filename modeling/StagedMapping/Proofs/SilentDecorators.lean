import StagedMapping.Proofs.AskedRequests
import StagedMapping.Proofs.ReportedPlaces
import StagedMapping.Proofs.ResolvedTypes

/-! Decorators that come to nothing. What the decorators of a class note is part of the notes of a
pass (`Compilation.notes_infix`), and what they name is requested. A type that resolves without a
note is known, but that does not give it a descriptor: builtin types have none. So of the decorators
of an owner those are silent, with neither a request nor a note, that name a builtin type
(`Compilation.discover_silent_iff`). -/
namespace StagedMapping

/-! ### What decorators note -/

/-- The notes of steps that do not depend on where they start. -/
theorem Noted.foldlM_notes {ε α β : Type} {f : β → α → Noted ε β} {noted : α → List ε}
    (h : ∀ b a, (f b a).notes = noted a) (as : List α) (b : β) :
    (as.foldlM f b).notes = as.flatMap noted := by
  induction as generalizing b with
  | nil => rfl
  | cons a rest ih => rw [List.foldlM_cons, Noted.bind_notes, h, ih, List.flatMap_cons]

namespace Compilation
variable {c : Compilation}

/-- The notes of a decorator, if it asks for maps. -/
def decoratorNotes (c : Compilation) (source : Nat) (d : Source.Decorator) : List SourceProblem :=
  if d.name = Convention.mapDecorator then (c.decoratedSource source d).notes else []

theorem addRequest_notes (source : Nat) (target : Descriptor) (declared : DeclaredAt)
    (kept : List MapRequest) (d : Source.Decorator) :
    (c.addRequest source target declared kept d).notes = c.decoratorNotes source d := by
  unfold addRequest decoratorNotes
  by_cases hname : d.name = Convention.mapDecorator
  · rw [if_neg (not_not.2 hname), if_pos hname, Noted.bind_notes]
    split <;> exact List.append_nil _
  · rw [if_pos hname, if_neg hname]
    rfl

theorem addClass_notes (kept : List MapRequest) (e : String × Nat × String × Source.Class) :
    (c.addClass kept e).notes = (c.classRequests e).notes := by
  rw [classRequests, addClass_eq, addClass_eq]
  cases c.descriptorNamed? e.1 with
  | none => rfl
  | some target =>
    dsimp only
    cases target.declared with
    | none => rfl
    | some declared =>
      dsimp only
      split
      · rw [Noted.foldlM_notes (addRequest_notes _ _ _),
          Noted.foldlM_notes (addRequest_notes _ _ _)]
      · rfl

variable {files : List SourceFile} {compiled : List CompiledType}
  {e : String × Nat × String × Source.Class}

theorem Owns.classRequests_notes (h : (ofSources files compiled).Owns e) :
    ((ofSources files compiled).classRequests e).notes =
      e.2.2.2.decorators.flatMap ((ofSources files compiled).decoratorNotes e.2.1) := by
  rw [classRequests, addClass_eq, h.descriptorNamed?]
  show (if e.2.1 = e.2.1 then _ else _ : Noted SourceProblem (List MapRequest)).notes = _
  rw [if_pos rfl, Noted.foldlM_notes (addRequest_notes _ _ _)]

/-- What a decorator of an owner notes is reported in one piece. -/
theorem notes_infix (he : e ∈ Inventory.declarations files)
    (h : (ofSources files compiled).Owns e) {d : Source.Decorator} (hd : d ∈ e.2.2.2.decorators) :
    (ofSources files compiled).decoratorNotes e.2.1 d <:+:
      (ofSources files compiled).discover.notes := by
  have hnotes : (ofSources files compiled).discover.notes = (Inventory.declarations files).flatMap
      fun e => ((ofSources files compiled).classRequests e).notes :=
    Noted.foldlM_notes addClass_notes _ _
  have hclass : _ <:+: (ofSources files compiled).discover.notes := hnotes ▸ infix_flatMap he
  refine List.IsInfix.trans ?_ hclass
  rw [h.classRequests_notes]
  exact infix_flatMap hd

theorem decoratedSource_notes (source : Nat) (d : Source.Decorator) :
    ∀ n ∈ (c.decoratedSource source d).notes,
      n.source = source ∧ n.problem.isError = true ∧ n.problem.span ∈ d.spans := by
  intro n hn
  unfold decoratedSource at hn
  split at hn
  · next arg harg =>
    rw [Noted.bind_notes, Noted.pure_notes, List.append_nil] at hn
    obtain ⟨p, hp, rfl⟩ := List.mem_map.1 hn
    refine ⟨rfl, c.resolve_notes_isError source [] arg p hp, ?_⟩
    rw [Source.Decorator.spans, harg]
    exact List.mem_cons_of_mem _ (List.mem_append_left _ (c.resolve_spans source [] arg p hp))
  · cases List.mem_singleton.1 hn
    exact ⟨rfl, rfl, List.mem_cons_self⟩

/-! ### What decorators come to -/

/-- The type that a decorator names is requested as a source of its class. -/
def IsRequested (c : Compilation) (e : String × Nat × String × Source.Class)
    (d : Source.Decorator) : Prop :=
  ∃ r ∈ c.discover.value, r.target = c.descriptorOf e ∧
    (c.decoratedSource e.2.1 d).value = some r.source

/-- A decorator has errors, and they are reported: in the source of its class, at its place. -/
structure IsReported (c : Compilation) (e : String × Nat × String × Source.Class)
    (d : Source.Decorator) : Prop where
  noted : (c.decoratedSource e.2.1 d).notes ≠ []
  reported : (c.decoratedSource e.2.1 d).notes <:+: c.discover.notes
  placed : ∀ n ∈ (c.decoratedSource e.2.1 d).notes,
    n.source = e.2.1 ∧ n.problem.isError = true ∧ n.problem.span ∈ d.spans

/-- A decorator names a builtin type, and there is no type of its name in the pass. -/
def NamesBuiltin (c : Compilation) (source : Nat) (d : Source.Decorator) : Prop :=
  ∃ (arg : Source.TypeExpr) (b : BuiltinType) (args : List TypeRef), d.args = [arg] ∧
    c.resolve source [] arg = ⟨.mk "" b.spelling args, []⟩ ∧
    c.descriptorNamed? b.spelling = none

theorem isRequested_of_named (he : e ∈ Inventory.declarations files)
    (h : (ofSources files compiled).Owns e) {d : Source.Decorator} (hd : d ∈ e.2.2.2.decorators)
    (hname : d.name = Convention.mapDecorator) {s : Descriptor}
    (hs : ((ofSources files compiled).decoratedSource e.2.1 d).value = some s) :
    (ofSources files compiled).IsRequested e d := by
  obtain ⟨k, hk, hksource, hktarget⟩ :=
    exists_asked he h he rfl rfl (mem_sourcesNamed.2 ⟨d, hd, hname, hs⟩)
  obtain ⟨r, hr, htarget, hsource⟩ := exists_request he hk
  exact ⟨r, hr, htarget.trans hktarget, by rw [hs, hsource, hksource]⟩

theorem isReported_of_noted (he : e ∈ Inventory.declarations files)
    (h : (ofSources files compiled).Owns e) {d : Source.Decorator} (hd : d ∈ e.2.2.2.decorators)
    (hname : d.name = Convention.mapDecorator)
    (hn : ((ofSources files compiled).decoratedSource e.2.1 d).notes ≠ []) :
    (ofSources files compiled).IsReported e d := by
  have hinfix := notes_infix he h hd
  rw [decoratorNotes, if_pos hname] at hinfix
  exact ⟨hn, hinfix, decoratedSource_notes e.2.1 d⟩

/-- A type that resolves without a note has a descriptor, or it is a builtin type. -/
theorem builtin_or_known (hread : ∀ f ∈ files, ∃ text, Source.Module.parse text = .ok f.content)
    {i : Nat} (hi : i < files.length) {t : Source.TypeExpr} (ht : t.Proper)
    (h : ((ofSources files compiled).resolve i [] t).notes = []) :
    (∃ b args, ((ofSources files compiled).resolve i [] t).value =
        .mk "" (BuiltinType.spelling b) args) ∨
      ∃ s, (ofSources files compiled).descriptor?
        ((ofSources files compiled).resolve i [] t).value = some s := by
  obtain ⟨-, found, hfound, -, hvalue⟩ := Inventory.resolve_found (read_ofSources hread) hi ht h
  rw [hvalue]
  cases hfound with
  | parameter hname hmem => cases hmem
  | builtin b => exact .inl ⟨b, _, rfl⟩
  | known hq hknown =>
    obtain ⟨o, -, hd⟩ := descriptorNamed?_of_contains hknown
    exact .inr ⟨_, (congrArg _ (TypeRef.qualified_ofQualified hq _)).trans hd⟩

/-- The classes of a pass were read, in one of its sources. -/
theorem declarations_read (hread : ∀ f ∈ files, ∃ text, Source.Module.parse text = .ok f.content)
    (he : e ∈ Inventory.declarations files) : e.2.1 < files.length ∧ e.2.2.2.Named := by
  obtain ⟨⟨f, i⟩, hf, hclass⟩ := List.mem_flatMap.1 he
  obtain ⟨cls, hcls, rfl⟩ := List.mem_map.1 hclass
  obtain ⟨text, hparse⟩ := hread f (List.fst_mem_of_mem_zipIdx hf)
  have hget := List.mk_mem_zipIdx_iff_getElem?.1 hf
  exact ⟨(List.getElem?_eq_some_iff.1 hget).1, Source.Module.classes_named hparse cls hcls⟩

theorem decoratedSource_single (source : Nat) {d : Source.Decorator} {arg : Source.TypeExpr}
    (harg : d.args = [arg]) : c.decoratedSource source d =
      ⟨c.descriptor? (c.resolve source [] arg).value,
        (c.resolve source [] arg).notes.map (⟨source, ·⟩)⟩ := by
  unfold decoratedSource
  rw [harg]
  simp [Noted.ext_iff]

/-- A decorator names no type of the pass, and notes nothing, exactly if it names a builtin type. -/
theorem namesBuiltin_iff (hread : ∀ f ∈ files, ∃ text, Source.Module.parse text = .ok f.content)
    (he : e ∈ Inventory.declarations files) {d : Source.Decorator} (hd : d ∈ e.2.2.2.decorators) :
    (ofSources files compiled).NamesBuiltin e.2.1 d ↔
      ((ofSources files compiled).decoratedSource e.2.1 d).value = none ∧
        ((ofSources files compiled).decoratedSource e.2.1 d).notes = [] := by
  constructor
  · rintro ⟨arg, b, args, harg, hresolve, hnone⟩
    rw [decoratedSource_single e.2.1 harg, hresolve]
    exact ⟨hnone, rfl⟩
  · rintro ⟨hnone, hnotes⟩
    obtain ⟨arg, harg⟩ : ∃ arg, d.args = [arg] := by
      unfold decoratedSource at hnotes
      split at hnotes
      · exact ⟨_, ‹_›⟩
      · cases hnotes
    rw [decoratedSource_single e.2.1 harg] at hnone hnotes
    replace hnotes := List.map_eq_nil_iff.1 hnotes
    obtain ⟨hi, hnamed⟩ := declarations_read hread he
    have hproper : arg.Proper := hnamed.decorators d hd arg (by rw [harg]; exact List.mem_cons_self)
    rcases builtin_or_known hread hi hproper hnotes with ⟨b, args, hb⟩ | ⟨s, hs⟩
    · refine ⟨arg, b, args, harg, Noted.ext_iff.2 ⟨hb, hnotes⟩, ?_⟩
      rw [hb] at hnone
      exact hnone
    · cases hs.symm.trans hnone

/-- A decorator of an owner that asks for a map is requested or reported, unless it names a builtin
type, for which there is no descriptor; then it is dropped, and nothing is said of it. -/
theorem discover_silent_iff (hread : ∀ f ∈ files, ∃ text, Source.Module.parse text = .ok f.content)
    (he : e ∈ Inventory.declarations files) (h : (ofSources files compiled).Owns e)
    {d : Source.Decorator} (hd : d ∈ e.2.2.2.decorators)
    (hname : d.name = Convention.mapDecorator) :
    (ofSources files compiled).IsRequested e d ∨ (ofSources files compiled).IsReported e d ↔
      ¬ (ofSources files compiled).NamesBuiltin e.2.1 d := by
  rw [namesBuiltin_iff hread he hd]
  constructor
  · rintro (⟨r, -, -, hr⟩ | hreported) ⟨hnone, hnotes⟩
    · cases hr.symm.trans hnone
    · exact hreported.noted hnotes
  · intro hheard
    cases hs : ((ofSources files compiled).decoratedSource e.2.1 d).value with
    | some s => exact .inl (isRequested_of_named he h hd hname hs)
    | none => exact .inr (isReported_of_noted he h hd hname fun hnotes => hheard ⟨hs, hnotes⟩)

end Compilation

/-! ### A map from a builtin type -/

namespace Sample

def fromInt : List Input := [⟨"m", "@map_from(int)\nclass D:\n pass\n"⟩]

theorem fromInt_read : ∃ files e d, readSources fromInt = .ok files ∧
    Inventory.declarations files = [e] ∧ e.2.2.2.decorators = [d] ∧
    d.name = Convention.mapDecorator ∧ (Compilation.ofSources files []).Owns e ∧
    (Compilation.ofSources files []).discover = ⟨[], []⟩ := by
  refine ⟨?files, ?e, ?d, ?hread, ?hclass, ?hdecorator, ?hname, ?howns, ?hdiscover⟩
  case hread =>
    refine @readSources_single _ _ _ ?content rfl ?parsed
    case parsed =>
      rw [Source.Module.parse, lex, String.toList_ofList]
      cbv
      rfl
  case hclass => rfl
  case hdecorator => rfl
  case hname => rfl
  case howns => rfl
  case hdiscover => cbv

end Sample

theorem Compilation.discover_silent_iff_int : ∃ files e d,
    (∀ f ∈ files, ∃ text, Source.Module.parse text = .ok f.content) ∧
      e ∈ Inventory.declarations files ∧ (ofSources files []).Owns e ∧
      d ∈ e.2.2.2.decorators ∧ d.name = Convention.mapDecorator ∧
      ((ofSources files []).IsRequested e d ∨ (ofSources files []).IsReported e d ↔
        ¬ (ofSources files []).NamesBuiltin e.2.1 d) := by
  obtain ⟨files, e, d, hread, hclass, hdecorator, hname, howns, -⟩ := Sample.fromInt_read
  have hread := read_of_readSources hread
  have he : e ∈ Inventory.declarations files := hclass ▸ List.mem_cons_self
  have hd : d ∈ e.2.2.2.decorators := hdecorator ▸ List.mem_cons_self
  exact ⟨files, e, d, hread, he, howns, hd, hname, discover_silent_iff hread he howns hd hname⟩

/-- A decorator of the only class, and a pass without requests or notes. -/
theorem Compilation.discover_silent : ∃ files, readSources Sample.fromInt = .ok files ∧
    ∃ e ∈ Inventory.declarations files, (ofSources files []).Owns e ∧
      ∃ d ∈ e.2.2.2.decorators, d.name = Convention.mapDecorator ∧
        (ofSources files []).discover = ⟨[], []⟩ := by
  obtain ⟨files, e, d, hread, hclass, hdecorator, hname, howns, hdiscover⟩ := Sample.fromInt_read
  exact ⟨files, hread, e, hclass ▸ List.mem_cons_self, howns, d, hdecorator ▸ List.mem_cons_self,
    hname, hdiscover⟩

end StagedMapping
