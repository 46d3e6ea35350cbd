import Mathlib
import StagedMapping.Proofs.DiagnosticSpans
import StagedMapping.Proofs.InputOrder
import StagedMapping.Proofs.ModuleSpans
import StagedMapping.Proofs.WrittenTypes

/-! Where the problems of a pass are. What resolution notes stands at the type that it
resolves, what the inventory and the requests note stands at a class, and diagnostics point at
methods; each carries the number of the source that the class is in. So every problem is in the
text of the input that it names, and has one report (`compile_reports_located`). -/
namespace StagedMapping
open Source (optionalSpans blockSpans)

/-! ### Resolution -/

namespace Inventory
variable (inv : Inventory) (source : Nat) (generics : List String)

theorem apply_span (t : TypeRef) (args : List TypeRef) (span : Span) :
    (inv.apply generics t args span).All fun p => p.span = span := by
  unfold apply
  split
  · exact .pure _
  split
  · exact .pure _
  · exact .single rfl

theorem resolvePath_span (path : List String) (args : List TypeRef) (span : Span) :
    (inv.resolvePath source generics path args span).All fun p => p.span = span := by
  have hlookup : (inv.lookup source generics path span).All fun p => p.span = span := by
    intro p hp
    rcases inv.lookup_notes source generics path span with h | ⟨-, fault, -, h⟩
    · rw [h] at hp
      cases hp
    · rw [h] at hp
      rw [List.mem_singleton.1 hp]
  refine .bind hlookup ?_
  split
  · exact .pure _
  · exact inv.apply_span generics _ args span

mutual

/-- What is noted of a written type stands at the type, or at an argument of it. -/
theorem resolve_spans : (t : Source.TypeExpr) →
    (inv.resolve source generics t).All fun p => p.span ∈ t.spans
  | .named span path => by
    refine Noted.All.mono (inv.resolvePath_span source generics path [] span) fun p hp => ?_
    rw [hp]
    exact List.mem_singleton_self _
  | .applied span path args => by
    refine .bind (Noted.All.mono (resolveAll_spans args) fun p => List.mem_cons_of_mem _) ?_
    refine Noted.All.mono (inv.resolvePath_span source generics path _ span) fun p hp => ?_
    rw [hp]
    exact List.mem_cons_self

theorem resolveAll_spans : (ts : List Source.TypeExpr) →
    (inv.resolveAll source generics ts).All fun p => p.span ∈ Source.TypeExpr.listSpans ts
  | [] => .pure _
  | t :: rest =>
    .bind (Noted.All.mono (resolve_spans t) fun _ => List.mem_append_left _)
      (.bind (Noted.All.mono (resolveAll_spans rest) fun _ => List.mem_append_right _) (.pure _))

end
end Inventory

namespace Descriptor
variable {resolve : Source.TypeExpr → Noted Problem TypeRef}
  (h : ∀ t, (resolve t).All fun p => p.span ∈ t.spans)
include h

theorem ofField_spans (key : TypeKey) (f : Source.Field) :
    (ofField resolve key f).All fun p => p.span ∈ f.spans :=
  .bind (Noted.All.mono (h f.type) fun _ => List.mem_cons_of_mem _) (.pure _)

theorem ofParam_spans (p : Source.Param) :
    (ofParam resolve p).All fun n => n.span ∈ p.spans :=
  .bind (Noted.All.mono (h p.type) fun _ hn =>
    List.mem_cons_of_mem _ (List.mem_append_left _ hn)) (.pure _)

theorem ofMethod_spans (key : TypeKey) (m : Source.Method) :
    (ofMethod resolve key m).All fun p => p.span ∈ m.spans := by
  unfold ofMethod
  refine .bind ?_ (.bind (.mapM fun q hq => ?_) (.pure _))
  · cases hr : m.returns with
    | none => exact .pure _
    | some t =>
      refine .map _ (Noted.All.mono (h t) fun p hp => List.mem_cons_of_mem _ ?_)
      refine List.mem_append_left _ (List.mem_append_right _ ?_)
      rw [hr]
      exact hp
  · refine Noted.All.mono (ofParam_spans h q) fun p hp => List.mem_cons_of_mem _ ?_
    exact List.mem_append_left _ (List.mem_append_left _ (List.mem_flatMap.2 ⟨q, hq, hp⟩))

theorem ofClass_spans (source : Nat) (ns : String) (c : Source.Class) :
    (ofClass resolve source ns c).All fun p => p.span ∈ c.spans := by
  unfold ofClass
  refine .bind (.mapM fun f hf => ?_) (.bind (.mapM fun m hm => ?_) (.pure _))
  · refine Noted.All.mono (ofField_spans h _ f) fun p hp => List.mem_cons_of_mem _ ?_
    exact List.mem_append_right _ (List.mem_append_left _ (List.mem_flatMap.2 ⟨f, hf, hp⟩))
  · refine Noted.All.mono (ofMethod_spans h _ m) fun p hp => List.mem_cons_of_mem _ ?_
    exact List.mem_append_right _ (List.mem_append_right _ (List.mem_flatMap.2 ⟨m, hm, hp⟩))

end Descriptor

theorem Descriptor.ofParam_value_spans (resolve : Source.TypeExpr → Noted Problem TypeRef)
    (p : Source.Param) : (ofParam resolve p).value.spans ⊆ p.spans := by
  intro s hs
  rcases List.mem_cons.1 hs with rfl | hs
  · exact List.mem_cons_self
  refine List.mem_cons_of_mem _ (List.mem_append_right _ ?_)
  replace hs : s ∈ optionalSpans Source.Expr.spans
      ((p.default.map fun e => (⟨e.text, some e⟩ : DefaultValue)).bind (·.expr)) := hs
  cases hd : p.default with
  | none =>
    rw [hd] at hs
    cases hs
  | some e =>
    rw [hd] at hs
    exact hs

/-- The methods of a descriptor are written in the class that it describes. -/
theorem Inventory.describe_methods (inv : Inventory) (source : Nat) (ns : String)
    (c : Source.Class) :
    (inv.describe (.declared source ns c)).value.methods.flatMap Method.spans ⊆ c.spans := by
  intro s hs
  obtain ⟨m, hm, hs⟩ := List.mem_flatMap.1 hs
  have hmethods : m ∈ c.methods.map fun m =>
      (Descriptor.ofMethod (inv.resolve source c.typeParams) ⟨ns, c.name⟩ m).value := by
    rw [← Noted.mapM_value]
    exact hm
  obtain ⟨written, hwritten, rfl⟩ := List.mem_map.1 hmethods
  refine List.mem_cons_of_mem _ (List.mem_append_right _ (List.mem_append_right _ ?_))
  refine List.mem_flatMap.2 ⟨written, hwritten, ?_⟩
  rcases List.mem_cons.1 hs with rfl | hs
  · exact List.mem_cons_self
  rcases List.mem_append.1 hs with hs | hs
  · obtain ⟨p, hp, hs⟩ := List.mem_flatMap.1 hs
    have hparams : p ∈ written.params.map fun q =>
        (Descriptor.ofParam (inv.resolve source c.typeParams) q).value := by
      rw [← Noted.mapM_value]
      exact hp
    obtain ⟨q, hq, rfl⟩ := List.mem_map.1 hparams
    refine List.mem_cons_of_mem _ (List.mem_append_left _ (List.mem_append_left _ ?_))
    exact List.mem_flatMap.2 ⟨q, hq, Descriptor.ofParam_value_spans _ q hs⟩
  · refine List.mem_cons_of_mem _ (List.mem_append_right _ ?_)
    replace hs : s ∈ blockSpans (written.body.getD []) := hs
    cases hbody : written.body with
    | none =>
      rw [hbody] at hs
      cases hs
    | some body =>
      rw [hbody] at hs
      exact hs

/-! ### Sources -/

/-- The span is one of the source of that number. -/
def Points (files : List SourceFile) (source : Nat) (span : Span) : Prop :=
  ∃ f, files[source]? = some f ∧ span ∈ f.content.spans

namespace Compilation
variable {files : List SourceFile} {compiled : List CompiledType}

/-- The class stands in the source of that number. -/
def Declares (files : List SourceFile) (source : Nat) (c : Source.Class) : Prop :=
  ∀ s ∈ c.spans, Points files source s

theorem declares_of_mem {e : String × Nat × String × Source.Class}
    (he : e ∈ Inventory.declarations files) : Declares files e.2.1 e.2.2.2 := by
  obtain ⟨⟨f, source⟩, hf, he⟩ := List.mem_flatMap.1 he
  obtain ⟨c, hc, rfl⟩ := List.mem_map.1 he
  exact fun s hs => ⟨f, List.mk_mem_zipIdx_iff_getElem?.1 hf, Source.Module.class_spans hc hs⟩

/-- A type that is declared stands in the source of its number. -/
def Placed (files : List SourceFile) : Origin → Prop
  | .declared source _ c => Declares files source c
  | .compiled _ => True

theorem origins_placed :
    ∀ o ∈ (Inventory.ofSources files compiled).value.origins, Placed files o.2 :=
  Inventory.forall_ofSources (fun _ he => declares_of_mem he) fun _ _ => trivial

/-- The problem points into its source. -/
def Pointed (files : List SourceFile) (p : SourceProblem) : Prop :=
  Points files p.source p.problem.span

theorem problems_pointed : ∀ p ∈ (ofSources files compiled).problems, Pointed files p := by
  refine List.forall_mem_append.2 ⟨?_, ?_⟩
  · -- a class that repeats the name of another
    refine Noted.All.bind (.foldlM (fun origins e he => ?_) []) (.pure _)
    dsimp only [Inventory.addDeclared]
    split
    · exact .single (declares_of_mem he _ List.mem_cons_self)
    · exact .pure _
  · refine Noted.All.mapM fun o ho => .bind ?_ (.pure _)
    have hplaced := origins_placed o (List.mem_mergeSort.1 ho)
    obtain ⟨name, ⟨source, ns, c⟩ | c⟩ := o
    · have noted := Descriptor.ofClass_spans ((Inventory.ofSources files compiled).value.resolve_spans
        source c.typeParams) source ns c
      exact .mapNotes (Noted.All.mono noted fun p hp => hplaced _ hp)
    · exact .pure _

/-! ### Requests -/

section
variable {c : Compilation} (hfiles : c.files = files)

theorem decoratedSource_pointed {source : Nat} {d : Source.Decorator}
    (hd : ∀ s ∈ d.spans, Points files source s) :
    (c.decoratedSource source d).All (Pointed files) := by
  unfold decoratedSource
  split
  · rename_i arg harg
    refine .bind (.mapNotes (Noted.All.mono (c.resolve_spans source [] arg) fun p hp => ?_)) (.pure _)
    refine hd _ (List.mem_cons_of_mem _ ?_)
    rw [harg]
    exact List.mem_append_left _ hp
  · exact .single (hd _ List.mem_cons_self)

theorem addRequest_pointed {source : Nat} {target : Descriptor} {declared : DeclaredAt}
    (requests : List MapRequest) {d : Source.Decorator} (hd : ∀ s ∈ d.spans, Points files source s) :
    (c.addRequest source target declared requests d).All (Pointed files) := by
  unfold addRequest
  split
  · exact .pure _
  · refine .bind (decoratedSource_pointed hd) ?_
    split <;> exact .pure _

include hfiles

theorem discover_pointed : c.discover.All (Pointed files) := by
  refine .foldlM (fun requests e he => ?_) []
  rw [hfiles] at he
  have hdeclares := declares_of_mem he
  unfold addClass
  dsimp only
  split
  · exact .pure _
  split
  · exact .pure _
  split
  · refine .foldlM (fun requests d hd => addRequest_pointed requests fun s hs => ?_) requests
    refine hdeclares s (List.mem_cons_of_mem _ (List.mem_append_left _ ?_))
    exact List.mem_flatMap.2 ⟨d, hd, hs⟩
  · exact .pure _

end

/-! ### Mappings -/

/-- The methods of a class that is mapped to stand in the source where it is declared. -/
theorem methods_pointed {name : String} {d : Descriptor} {declared : DeclaredAt}
    (hd : (ofSources files compiled).descriptorNamed? name = some d)
    (hdeclared : d.declared = some declared) :
    ∀ s ∈ d.methods.flatMap Method.spans, Points files declared.source s := by
  have hmem := Bindings.mem_of_get? hd
  rw [ofSources_types] at hmem
  obtain ⟨⟨key, origin⟩, ho, he⟩ := List.mem_map.1 hmem
  have hplaced := origins_placed _ (List.mem_mergeSort.1 ho)
  cases he
  cases origin with
  | compiled c => cases hdeclared
  | declared source ns c =>
    cases hdeclared
    exact fun s hs => hplaced s (Inventory.describe_methods _ source ns c hs)

theorem units_pointed : let c := ofSources files compiled
    (c.units c.discover.value).All fun d => Points files d.site.source d.span := by
  intro c
  refine .mapM fun r hr => Noted.All.mono (c.unit_at r.source r.target r.declared) fun d hd => ?_
  have hrequested := discover_requested c r hr
  obtain ⟨name, hname⟩ := hrequested.target
  rw [hd.source]
  exact methods_pointed hname hrequested.declared d.span hd.span

end Compilation

/-! ### Passes -/

/-- The span is a part of the text of the input of that number. -/
structure Located (inputs : List Input) (source : Nat) (span : Span) (input : Input) : Prop where
  named : inputs[source]? = some input
  inside : span.Inside input.text.toList
  /-- So a report need not move it. -/
  unmoved : span.clamp (Text.byteLength input.text.toList) = span

theorem located_of_inside {inputs : List Input} {source : Nat} {span : Span} {input : Input}
    (hinput : inputs[source]? = some input) (inside : span.Inside input.text.toList) :
    Located inputs source span input :=
  ⟨hinput, inside, Span.clamp_of_inside inside.ordered inside.stop.le⟩

theorem Source.Module.parse_error_ne_nil {source : String} {problems : List Problem}
    (h : parse source = .error problems) : problems ≠ [] := by
  unfold parse at h
  cases hlex : lex source with
  | error faults =>
    rw [hlex] at h
    cases h
    unfold lex at hlex
    dsimp only at hlex
    generalize ite (_ = 0) ([] : List Problem) _ = unclosed at hlex
    split at hlex <;> cases hlex
    rename_i some
    exact fun none => some (List.isEmpty_iff.2 none)
  | ok tokens =>
    rw [hlex] at h
    replace h : ofTokens tokens = .error problems := h
    unfold ofTokens at h
    generalize readDeclarations (Cursor.start tokens) = read at h
    obtain ⟨declarations, _ | ⟨p, rest⟩⟩ := read
    · cases h
    · cases h
      exact List.cons_ne_nil p rest

theorem input_of_readable {inputs : List Input}
    (parsed : ∀ input ∈ inputs, ∃ m, Source.Module.parse input.text = .ok m) {source : Nat}
    {f : SourceFile} (hf : (readable inputs)[source]? = some f) :
    ∃ input, inputs[source]? = some input ∧ Source.Module.parse input.text = .ok f.content := by
  induction inputs generalizing source with
  | nil => cases hf
  | cons input rest ih =>
    obtain ⟨⟨m, hm⟩, hrest⟩ := List.forall_mem_cons.1 parsed
    have hcons : readable (input :: rest) = ⟨input.file, input.text, m⟩ :: readable rest := by
      rw [readable, List.filterMap_cons, hm]
      rfl
    rw [hcons] at hf
    cases source with
    | zero =>
      cases hf
      exact ⟨input, rfl, hm⟩
    | succ source => exact ih hrest hf

/-- Sources that can be read keep their numbers. -/
theorem input_of_readSources {inputs : List Input} {files : List SourceFile}
    (h : readSources inputs = .ok files) {source : Nat} {f : SourceFile}
    (hf : files[source]? = some f) :
    ∃ input, inputs[source]? = some input ∧ Source.Module.parse input.text = .ok f.content := by
  unfold readSources at h
  split at h <;> cases h
  rename_i clean
  refine input_of_readable (fun input hinput => ?_) hf
  have faultless := (unreadable_eq_nil_iff inputs).1 clean input hinput
  cases hparse : Source.Module.parse input.text with
  | ok m => exact ⟨m, rfl⟩
  | error problems =>
    rw [Input.faults, hparse] at faultless
    exact absurd faultless (Source.Module.parse_error_ne_nil hparse)

theorem located_of_points {inputs : List Input} {files : List SourceFile}
    (h : readSources inputs = .ok files) {source : Nat} {span : Span}
    (hspan : Points files source span) : ∃ input, Located inputs source span input := by
  obtain ⟨f, hf, hs⟩ := hspan
  obtain ⟨input, hinput, hparse⟩ := input_of_readSources h hf
  exact ⟨input, located_of_inside hinput (Source.Module.parse_inside hparse span hs)⟩

theorem unreadable_located {inputs : List Input} {problems : List SourceProblem}
    (h : readSources inputs = .error problems) :
    ∀ p ∈ problems, ∃ input, Located inputs p.source p.problem.span input := by
  unfold readSources at h
  split at h <;> cases h
  intro p hp
  rw [unreadable_eq] at hp
  obtain ⟨⟨input, source⟩, hinput, hp⟩ := List.mem_flatMap.1 hp
  obtain ⟨problem, hproblem, rfl⟩ := List.mem_map.1 hp
  refine ⟨input, located_of_inside (List.mk_mem_zipIdx_iff_getElem?.1 hinput) ?_⟩
  unfold Input.faults at hproblem
  split at hproblem
  · cases hproblem
  · rename_i faults hparse
    exact Source.Module.parse_problems_inside hparse problem hproblem

theorem notes_of_compileSources {inputs : List Input} {files : List SourceFile}
    {compiled : List CompiledType} {options : EmitOptions} {result : PassResult}
    (h : compileSources inputs files compiled options = .ok result) :
    let c := Compilation.ofSources files compiled
    result.inputs = inputs ∧ result.problems = c.problems ++ c.discover.notes ∧
      result.diagnostics = (c.units c.discover.value).notes := by
  unfold compileSources at h
  extract_lets c requests problems units finish at h
  split at h
  · cases h
    exact ⟨rfl, rfl, rfl⟩
  · cases hcode : Emission.file c units.value options with
    | error e =>
      rw [hcode] at h
      cases h
    | ok code =>
      rw [hcode] at h
      cases h
      exact ⟨rfl, rfl, rfl⟩

/-- Every problem of a pass is in the input that it names. -/
theorem located_of_compile {inputs : List Input} {compiled : List CompiledType}
    {options : EmitOptions} {result : PassResult}
    (h : compile inputs compiled options = .ok result) :
    result.inputs = inputs ∧
      (∀ p ∈ result.problems, ∃ input, Located inputs p.source p.problem.span input) ∧
      ∀ d ∈ result.diagnostics, ∃ input, Located inputs d.site.source d.span input := by
  unfold compile at h
  split at h
  · rename_i problems hread
    cases h
    exact ⟨rfl, unreadable_located hread, List.forall_mem_nil _⟩
  · rename_i files hread
    obtain ⟨hinputs, hproblems, hdiagnostics⟩ := notes_of_compileSources h
    rw [hproblems, hdiagnostics]
    refine ⟨hinputs, fun p hp => located_of_points hread ?_, fun d hd => located_of_points hread ?_⟩
    · rcases List.mem_append.1 hp with hp | hp
      · exact Compilation.problems_pointed p hp
      · exact Compilation.discover_pointed rfl p hp
    · exact Compilation.units_pointed d hd

theorem forall₂_filterMap {α β : Type} {R : α → β → Prop} {f : α → Option β} {as : List α}
    (h : ∀ a ∈ as, ∃ b, f a = some b ∧ R a b) : List.Forall₂ R as (as.filterMap f) := by
  induction as with
  | nil => exact .nil
  | cons a rest ih =>
    obtain ⟨⟨b, hb, hab⟩, hrest⟩ := List.forall_mem_cons.1 h
    rw [List.filterMap_cons_some hb]
    exact .cons hab (ih hrest)

/-- Every problem of a pass is in the text of the input that it names, and it has one report,
which is of that text. -/
theorem compile_reports_located {inputs : List Input} {compiled : List CompiledType}
    {options : EmitOptions} {result : PassResult}
    (h : compile inputs compiled options = .ok result) :
    ∃ ofSources ofFactories, result.reports = ofSources ++ ofFactories ∧
      List.Forall₂ (fun p r => ∃ input, Located inputs p.source p.problem.span input ∧
        r = p.problem.report input.text) result.problems ofSources ∧
      List.Forall₂ (fun d r => ∃ input, Located inputs d.site.source d.span input ∧
        r = d.report input.text) result.diagnostics ofFactories := by
  obtain ⟨hinputs, hproblems, hdiagnostics⟩ := located_of_compile h
  refine ⟨_, _, rfl, forall₂_filterMap fun p hp => ?_, forall₂_filterMap fun d hd => ?_⟩
  · obtain ⟨input, located⟩ := hproblems p hp
    refine ⟨p.problem.report input.text, ?_, input, located, rfl⟩
    rw [hinputs]
    dsimp only
    rw [located.named]
    rfl
  · obtain ⟨input, located⟩ := hdiagnostics d hd
    refine ⟨d.report input.text, ?_, input, located, rfl⟩
    rw [hinputs]
    dsimp only
    rw [located.named]
    rfl

/-! ### A pass with problems of both kinds -/

namespace Sample

/-- A field of an unknown type, and a factory that builds another class, behind a comment with a
character of two bytes. -/
def misnamed : List Input :=
  [⟨"u", "class U:\n n: int\n"⟩,
    ⟨"t", "# é\n@map_from(U)\nclass T:\n n: Gone\n def map(u: U):\n  return new U()\n"⟩]

def misnamedProblem : SourceProblem := ⟨1, .unknownType "Gone", ⟨31, 35⟩⟩

def misnamedDiagnostic : Diagnostic := ⟨.wrongReturn "U", ⟨"T", "map", 1⟩, ⟨65, 66⟩⟩

theorem misnamed_compile : ∃ result, compile misnamed [] .default = .ok result ∧
    result.problems = [misnamedProblem] ∧ result.diagnostics = [misnamedDiagnostic] := by
  have found : (compile misnamed [] .default).map (fun r => (r.problems, r.diagnostics)) =
      .ok ([misnamedProblem], [misnamedDiagnostic]) := by cbv
  obtain ⟨result, h, shown⟩ := map_eq_ok.1 found
  exact ⟨result, h, congrArg Prod.fst shown, congrArg Prod.snd shown⟩

end Sample

theorem compile_reports_located_misnamed : ∃ result ofSources ofFactories,
    compile Sample.misnamed [] .default = .ok result ∧
      result.problems = [Sample.misnamedProblem] ∧
      result.diagnostics = [Sample.misnamedDiagnostic] ∧
      result.reports = ofSources ++ ofFactories ∧
      List.Forall₂ (fun p r => ∃ input, Located Sample.misnamed p.source p.problem.span input ∧
        r = p.problem.report input.text) result.problems ofSources ∧
      List.Forall₂ (fun d r => ∃ input, Located Sample.misnamed d.site.source d.span input ∧
        r = d.report input.text) result.diagnostics ofFactories := by
  obtain ⟨result, h, hproblems, hdiagnostics⟩ := Sample.misnamed_compile
  obtain ⟨ofSources, ofFactories, located⟩ := compile_reports_located h
  exact ⟨result, ofSources, ofFactories, h, hproblems, hdiagnostics, located⟩

end StagedMapping
