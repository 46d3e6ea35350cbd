import StagedMapping.Proofs.EmittedTree
import StagedMapping.Proofs.Identifiers
import StagedMapping.Proofs.ParsedNames
import StagedMapping.Proofs.PlanContents
import StagedMapping.Proofs.RequestOrder

/-! The names of the types that a pass works with. What written types refer to has names from
the sources, which are paths of names (`Inventory.resolve_named`), and so do the types of a
declared class, of the parameters of its methods, and of the sources that it is mapped from. -/
namespace StagedMapping

/-- The names of a type and of all its arguments are paths. -/
inductive TypeRef.Named : TypeRef → Prop where
  | mk {ns name : String} {args : List TypeRef} (hns : Name.IsPath ns) (hname : Name.IsPath name)
    (hargs : ∀ a ∈ args, Named a) : Named (.mk ns name args)

theorem TypeRef.Named.withArgs {t : TypeRef} (h : t.Named) {args : List TypeRef}
    (hargs : ∀ a ∈ args, a.Named) : (t.withArgs args).Named := by
  cases h with
  | mk hns hname => exact .mk hns hname hargs

theorem TypeRef.Named.ofName {name : String} (h : Name.IsPath name) : (TypeRef.ofName name).Named :=
  .mk (by decide) h (List.forall_mem_nil _)

theorem TypeRef.Named.ofQualified {path : String} (h : Name.IsPath path) :
    (TypeRef.ofQualified path).Named :=
  .mk h.splitQualified.1 h.splitQualified.2 (List.forall_mem_nil _)

theorem TypeRef.Named.qualified {t : TypeRef} (h : t.Named) : Name.IsPath t.qualified := by
  cases h with
  | mk hns hname => exact hns.qualify hname

theorem BuiltinType.isPath_spelling (b : BuiltinType) : Name.IsPath b.spelling := by
  cases b <;> decide

/-! ### Written types -/

/-- The names that a source sees are paths of words. -/
structure Context.Named (context : Context) : Prop where
  ns : Name.IsJoined context.ns
  imports : ∀ i ∈ context.imports, Name.IsJoined i.2
  globs : ∀ g ∈ context.globs, Name.IsJoined g

namespace Source

theorem isJoined_path {path : List String} (h : ∀ name ∈ path, Lexer.IsName name) :
    Name.IsJoined (Name.joinPath path) :=
  ⟨path, fun name hname => (h name hname).toIsWord, rfl⟩

theorem Module.context_named {source : String} {m : Module} (h : Module.parse source = .ok m) :
    m.context.Named where
  ns := by
    obtain ⟨path, hns, hpath⟩ := m.ns_named h
    show Name.IsJoined m.ns
    rw [hns]
    exact isJoined_path hpath
  imports i hi := by
    obtain ⟨d, hd, himport⟩ := List.mem_filterMap.1 hi
    unfold Module.importedType? at himport
    split at himport
    · obtain ⟨name, -, rfl⟩ := Option.map_eq_some_iff.1 himport
      exact isJoined_path (parse_named h _ hd)
    · cases himport
  globs g hg := by
    obtain ⟨d, hd, hspace⟩ := List.mem_filterMap.1 hg
    unfold Module.importedSpace? at hspace
    split at hspace
    · cases hspace
      exact isJoined_path (parse_named h _ hd)
    · cases hspace

end Source

namespace Inventory

/-- The sources of a pass were read. -/
def Read (inv : Inventory) : Prop :=
  ∀ f ∈ inv.files, ∃ text, Source.Module.parse text = .ok f.content

/-- All that a written name can refer to. -/
inductive Found (inv : Inventory) (generics : List String) : TypeRef → Prop where
  | parameter {name : String} (hname : Lexer.IsName name) (h : name ∈ generics) :
    Found inv generics (.ofName name)
  | builtin (b : BuiltinType) : Found inv generics (.builtin b)
  | known {q : String} (hq : Name.IsJoined q) (h : inv.contains q = true) :
    Found inv generics (.ofQualified q)

variable {inv : Inventory} {generics : List String}

theorem Found.named {t : TypeRef} (h : inv.Found generics t) : t.Named := by
  cases h with
  | parameter hname => exact .ofName hname.isPath
  | builtin b => exact .ofName (BuiltinType.isPath_spelling b)
  | known hq => exact .ofQualified hq.isPath

theorem known_found {name : String} (h : Name.IsJoined name) {span : Span} {t : TypeRef}
    (ht : (inv.known name span).value = some t) : inv.Found generics t := by
  unfold known at ht
  split at ht
  · cases ht
    exact .known h ‹_›
  · cases ht

theorem lookupIn_found {context : Context} (hcontext : context.Named) {name : String}
    (h : Lexer.IsWord name) {span : Span} {t : TypeRef}
    (ht : (inv.lookupIn context name span).value = some t) : inv.Found generics t := by
  unfold lookupIn at ht
  dsimp only at ht
  split at ht
  · cases ht
    exact .known (hcontext.ns.qualify h) ‹_›
  · split at ht
    · next target htarget =>
      exact known_found (hcontext.imports _ (Bindings.mem_of_get? htarget)) ht
    · split at ht
      · cases ht
      · next one hone =>
        cases ht
        have hmem : one ∈ (context.globs.map (Name.qualify · name)).filter inv.contains := by
          rw [hone]
          exact List.mem_cons_self
        obtain ⟨hglob, hknown⟩ := List.mem_filter.1 hmem
        obtain ⟨g, hg, rfl⟩ := List.mem_map.1 hglob
        exact .known ((hcontext.globs g hg).qualify h) hknown
      · cases ht

theorem lookup_found (hread : inv.Read) {source : Nat} {path : List String}
    (h : ∀ name ∈ path, Lexer.IsName name) {span : Span} {t : TypeRef}
    (ht : (inv.lookup source generics path span).value = some t) : inv.Found generics t := by
  unfold lookup at ht
  split at ht
  · cases ht
  · next name =>
    have hname := h name List.mem_cons_self
    split at ht
    · next hgeneric =>
      cases ht
      exact .parameter hname (List.contains_iff_mem.1 hgeneric)
    split at ht
    · cases ht
      exact .builtin _
    split at ht
    · cases ht
    · next context hcontext =>
      obtain ⟨f, hf, rfl⟩ := Option.map_eq_some_iff.1 hcontext
      obtain ⟨text, hparse⟩ := hread f (List.mem_of_getElem? hf)
      exact lookupIn_found (Source.Module.context_named hparse) hname.toIsWord ht
  · exact known_found (Source.isJoined_path h) ht

theorem resolvePath_named (hread : inv.Read) {source : Nat} {path : List String}
    (h : ∀ name ∈ path, Lexer.IsName name) {args : List TypeRef}
    (hargs : ∀ a ∈ args, a.Named) {span : Span} :
    (inv.resolvePath source generics path args span).value.Named := by
  unfold resolvePath
  rw [Noted.bind_value]
  split
  · exact .mk (by decide) (Source.isJoined_path h).isPath hargs
  · next t ht =>
    rw [inv.apply_value]
    exact (lookup_found hread h ht).named.withArgs hargs

mutual

/-- What a written type refers to has a name from the sources. -/
theorem resolve_named (hread : inv.Read) {source : Nat} :
    (t : Source.TypeExpr) → t.Proper → (inv.resolve source generics t).value.Named
  | .named span path, h => by
    cases h with
    | named _ hpath => exact resolvePath_named hread hpath (List.forall_mem_nil _)
  | .applied span path args, h => by
    cases h with
    | applied _ hpath _ hargs =>
      exact resolvePath_named hread hpath (resolveAll_named hread args hargs)

theorem resolveAll_named (hread : inv.Read) {source : Nat} :
    (ts : List Source.TypeExpr) → (∀ t ∈ ts, t.Proper) →
      ∀ r ∈ (inv.resolveAll source generics ts).value, r.Named
  | [], _ => List.forall_mem_nil _
  | t :: rest, h => by
    obtain ⟨ht, hrest⟩ := List.forall_mem_cons.1 h
    rw [resolveAll, Noted.bind_value]
    exact List.forall_mem_cons.2 ⟨resolve_named hread t ht, resolveAll_named hread rest hrest⟩

end

end Inventory

/-! ### Classes -/

/-- A parameter is named properly, as is its type, and its default is written. -/
structure Parameter.Named (p : Parameter) : Prop where
  name : Lexer.IsName p.name
  type : p.type.Named
  default : ∀ e ∈ p.default.bind (·.expr), e.Written

/-- The parameters of a method are named properly, and its statements are written. -/
structure Method.Named (m : Method) : Prop where
  parameters : ∀ p ∈ m.parameters, p.Named
  body : ∀ s ∈ m.body.getD [], s.Written

/-- A class and its members are named properly, and so are the types that it shows. -/
structure Descriptor.Named (d : Descriptor) : Prop where
  space : ∃ path, d.key.ns = Name.joinPath path ∧ ∀ name ∈ path, Lexer.IsName name
  name : Lexer.IsName d.key.name
  properties : ∀ p ∈ d.properties, p.type.Named
  propertyNames : ∀ p ∈ d.properties, Lexer.IsName p.name
  methods : ∀ m ∈ d.methods, m.Named

namespace Inventory
variable {inv : Inventory}

theorem method_named (hread : inv.Read) {source : Nat} {generics : List String} {key : TypeKey}
    {m : Source.Method} (h : m.Named) :
    (Descriptor.ofMethod (inv.resolve source generics) key m).value.Named where
  parameters p hp := by
    have hparams : p ∈ m.params.map fun q =>
        (Descriptor.ofParam (inv.resolve source generics) q).value := by
      rw [← Noted.mapM_value]
      exact hp
    obtain ⟨q, hq, rfl⟩ := List.mem_map.1 hparams
    refine ⟨(h.params q hq).name, resolve_named hread q.type (h.params q hq).type, fun e he => ?_⟩
    obtain ⟨d, hd, he⟩ := Option.bind_eq_some_iff.1 he
    obtain ⟨e', he', rfl⟩ := Option.map_eq_some_iff.1 hd
    cases he
    exact (h.params q hq).default e he'
  body s hs := by
    replace hs : s ∈ m.body.getD [] := hs
    cases hbody : m.body with
    | none =>
      rw [hbody] at hs
      cases hs
    | some body =>
      rw [hbody] at hs
      exact h.body body hbody s hs

theorem describe_named (hread : inv.Read) {source : Nat} {ns : String} {cls : Source.Class}
    (hspace : ∃ path, ns = Name.joinPath path ∧ ∀ name ∈ path, Lexer.IsName name)
    (h : cls.Named) : (inv.describe (.declared source ns cls)).value.Named := by
  have hfields : (inv.describe (.declared source ns cls)).value.properties = cls.fields.map fun f =>
      (Descriptor.ofField (inv.resolve source cls.typeParams) ⟨ns, cls.name⟩ f).value :=
    Noted.mapM_value ..
  refine ⟨hspace, h.name, fun p hp => ?_, fun p hp => ?_, fun m hm => ?_⟩
  · rw [hfields] at hp
    obtain ⟨f, hf, rfl⟩ := List.mem_map.1 hp
    exact resolve_named hread f.type (h.fields f hf).type
  · rw [hfields] at hp
    obtain ⟨f, hf, rfl⟩ := List.mem_map.1 hp
    exact (h.fields f hf).name
  · have hmethods : m ∈ cls.methods.map fun m =>
        (Descriptor.ofMethod (inv.resolve source cls.typeParams) ⟨ns, cls.name⟩ m).value := by
      rw [← Noted.mapM_value]
      exact hm
    obtain ⟨written, hwritten, rfl⟩ := List.mem_map.1 hmethods
    exact method_named hread (h.methods written hwritten)

end Inventory

/-! ### Passes -/

theorem read_of_readSources {inputs : List Input} {files : List SourceFile}
    (h : readSources inputs = .ok files) :
    ∀ f ∈ files, ∃ text, Source.Module.parse text = .ok f.content := by
  unfold readSources at h
  split at h
  · cases h
    intro f hf
    obtain ⟨input, -, hinput⟩ := List.mem_filterMap.1 hf
    obtain ⟨content, hcontent, rfl⟩ := Option.map_eq_some_iff.1 hinput
    refine ⟨input.text, ?_⟩
    cases hparse : Source.Module.parse input.text with
    | error problems =>
      rw [hparse] at hcontent
      cases hcontent
    | ok m =>
      rw [hparse] at hcontent
      cases hcontent
      rfl
  · cases h

/-- A mapping has a class as its target, and its types are named by the sources. -/
structure Generated.MapUnit.Named (c : Compilation) (u : Generated.MapUnit) : Prop where
  source : Name.IsPath u.source.name
  target : ∃ t ∈ c.types, t.2.declared.isSome = true ∧ u.target.key = t.2.key
  parameters : ∀ f ∈ u.mapping.factories, ∀ p ∈ f.parameters, p.type.Named

/-- A class is declared with proper names, in a namespace of proper names. -/
def Origin.Named : Origin → Prop
  | .declared _ ns cls =>
    (∃ path, ns = Name.joinPath path ∧ ∀ name ∈ path, Lexer.IsName name) ∧ cls.Named
  | .compiled _ => True

namespace Compilation
variable {files : List SourceFile} {compiled : List CompiledType}
  (hread : ∀ f ∈ files, ∃ text, Source.Module.parse text = .ok f.content)
include hread

theorem read_ofSources : (ofSources files compiled).toInventory.Read := hread

theorem types_named : ∀ t ∈ (ofSources files compiled).types, t.2.declared.isSome = true →
    t.2.Named := by
  have hproper : ∀ o ∈ (Inventory.ofSources files compiled).value.origins, o.2.Named := by
    refine Inventory.forall_ofSources (fun e he => ?_) fun _ _ => trivial
    obtain ⟨f, hf, he⟩ := List.mem_flatMap.1 he
    obtain ⟨cls, hcls, rfl⟩ := List.mem_map.1 he
    obtain ⟨text, hparse⟩ := hread f.1 (List.fst_mem_of_mem_zipIdx hf)
    exact ⟨Source.Module.ns_named hparse, Source.Module.classes_named hparse cls hcls⟩
  intro t ht hdeclared
  rw [ofSources_types] at ht
  obtain ⟨⟨name, origin⟩, ho, rfl⟩ := List.mem_map.1 ht
  have h := hproper _ (List.mem_mergeSort.1 ho)
  cases origin with
  | declared source ns cls => exact Inventory.describe_named (read_ofSources hread) h.1 h.2
  | compiled cls => cases hdeclared

theorem source_named : ∀ r ∈ (ofSources files compiled).discover.value,
    Name.IsPath r.source.key.name := by
  intro r hr
  obtain ⟨e, he, d, hd, hsource⟩ := (discover_requested _ r hr).source
  obtain ⟨f, hf, he⟩ := List.mem_flatMap.1 he
  obtain ⟨cls, hcls, rfl⟩ := List.mem_map.1 he
  obtain ⟨text, hparse⟩ := hread f.1 (List.fst_mem_of_mem_zipIdx hf)
  unfold decoratedSource at hsource
  split at hsource
  · next arg harg =>
    have harg : arg.Proper := by
      refine (Source.Module.classes_named hparse cls hcls).decorators d hd arg ?_
      rw [harg]
      exact List.mem_cons_self
    have hname := descriptorNamed?_qualified hsource
    have hnamed : ((Inventory.ofSources files compiled).value.resolve f.2 [] arg).value.Named :=
      Inventory.resolve_named (read_ofSources hread) arg harg
    exact Name.IsPath.of_qualify (hname ▸ hnamed.qualified)
  · cases hsource

/-- The target of a request is a class that was read. -/
theorem target_named {r : MapRequest} (hr : r ∈ (ofSources files compiled).discover.value) :
    r.target.Named := by
  have hrequested := discover_requested _ r hr
  obtain ⟨name, hname⟩ := hrequested.target
  refine types_named hread _ (Bindings.mem_of_get? hname) ?_
  rw [hrequested.declared]
  rfl

/-- The parameters of a factory are named in the method that it is of. -/
theorem parameter_named {r : MapRequest} (hr : r ∈ (ofSources files compiled).discover.value) :
    let u := ((ofSources files compiled).unit r.source r.target r.declared).value
    ∀ f ∈ u.mapping.factories, ∀ p ∈ f.parameters, p.Named := by
  intro u f hf p hp
  obtain ⟨m, hm, hmethod⟩ := Mapping.factory_of_build _ hf
  rw [(Factory.ofMethod_describes hmethod).parameters] at hp
  exact ((target_named hread hr).methods m hm).parameters p (List.mem_of_mem_tail hp)

theorem units_named : let c := ofSources files compiled
    ∀ u ∈ (c.units c.discover.value).value, u.Named c := by
  intro c u hu
  have hunits : (c.units c.discover.value).value =
      c.discover.value.map fun r => (c.unit r.source r.target r.declared).value :=
    Noted.mapM_value ..
  rw [hunits] at hu
  obtain ⟨r, hr, rfl⟩ := List.mem_map.1 hu
  have hrequested := discover_requested c r hr
  obtain ⟨name, hname⟩ := hrequested.target
  have hmem : (name, r.target) ∈ c.types := Bindings.mem_of_get? hname
  have hdeclared : r.target.declared.isSome = true := by rw [hrequested.declared]; rfl
  exact ⟨source_named hread r hr, ⟨_, hmem, hdeclared, rfl⟩, fun f hf p hp =>
    (parameter_named hread hr f hf p hp).type⟩

end Compilation
namespace Emits
open Emission
variable {inputs : List Input} {compiled : List CompiledType} {options : EmitOptions}
  {s : Generated.Surroundings} {units : List Generated.MapUnit} {tree : Generated.ModuleTree}
  {text : String} (h : Emits inputs compiled options s units tree text)
include h

theorem class_named : ∀ d ∈ declaredTypes s.compilation, d.Named := by
  obtain ⟨files, hread, hc⟩ := h.sources
  intro d hd
  obtain ⟨hmem, hdeclared⟩ := List.mem_filter.1 (List.mem_mergeSort.1 hd)
  obtain ⟨t, ht, rfl⟩ := List.mem_map.1 hmem
  rw [hc] at ht
  exact Compilation.types_named (read_of_readSources hread) t ht hdeclared

/-- A mapping of the pass has the source that a decorator names, and a class as its target. -/
theorem unit_named : ∀ u ∈ units, u.Named s.compilation := by
  obtain ⟨files, hread, hc⟩ := h.sources
  intro u hu
  rw [h.mapped, hc] at hu
  rw [hc]
  exact Compilation.units_named (read_of_readSources hread) u hu

theorem target_declared : ∀ u ∈ units, ∃ d ∈ declaredTypes s.compilation, u.target.key = d.key := by
  intro u hu
  obtain ⟨t, ht, hdeclared, hkey⟩ := (h.unit_named u hu).target
  exact ⟨t.2, List.mem_mergeSort.2 (List.mem_filter.2 ⟨List.mem_map_of_mem ht, hdeclared⟩), hkey⟩

end Emits
end StagedMapping
