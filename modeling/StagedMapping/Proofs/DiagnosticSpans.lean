import StagedMapping.Proofs.Partition
import StagedMapping.Proofs.PlanContents
import StagedMapping.Proofs.PlanSteps
import StagedMapping.Proofs.SyntaxSpans

/-! What diagnostics point at. Whatever analysis notes of a method stands at a span of the
method (`Factory.ofMethod_at`), and a factory is made of parts of its method, so this holds of
what lowering notes as well (`Mapping.plan_at`). Both name the source in which the mapping is
declared. -/
namespace StagedMapping
open Source (optionalSpans blockSpans)

/-! ### What all notes satisfy -/

namespace Noted
variable {ε δ α β : Type} {P : ε → Prop}

/-- Every note satisfies `P`. -/
def All (P : ε → Prop) (x : Noted ε α) : Prop := ∀ e ∈ x.notes, P e

namespace All
variable {x : Noted ε α}

theorem pure (a : α) : All P (pure a : Noted ε α) := List.forall_mem_nil _

theorem single {a : α} {e : ε} (h : P e) : All P (⟨a, [e]⟩ : Noted ε α) :=
  List.forall_mem_singleton.2 h

theorem bind {f : α → Noted ε β} (hx : x.All P) (hf : (f x.value).All P) : (x >>= f).All P :=
  List.forall_mem_append.2 ⟨hx, hf⟩

theorem map (f : α → β) (hx : x.All P) : (f <$> x).All P := by
  rw [All, map_notes]
  exact hx

theorem mono {Q : ε → Prop} (hx : x.All P) (h : ∀ e, P e → Q e) : x.All Q :=
  fun e he => h e (hx e he)

theorem mapM {f : α → Noted ε β} {as : List α} (h : ∀ a ∈ as, (f a).All P) : (as.mapM f).All P := by
  intro e he
  rw [mapM_notes] at he
  obtain ⟨a, ha, he⟩ := List.mem_flatMap.1 he
  exact h a ha e he

theorem foldlM {f : β → α → Noted ε β} {as : List α} (h : ∀ b, ∀ a ∈ as, (f b a).All P) (b : β) :
    (as.foldlM f b).All P := by
  induction as generalizing b with
  | nil => exact .pure b
  | cons a rest ih =>
    rw [List.foldlM_cons]
    exact .bind (h b a List.mem_cons_self) (ih (fun b a ha => h b a (List.mem_cons_of_mem _ ha)) _)

theorem mapNotes {g : ε → δ} {Q : δ → Prop} (hx : x.All fun e => Q (g e)) : (x.mapNotes g).All Q :=
  List.forall_mem_map.2 hx

end All
end Noted

/-- A diagnostic of a source, at one of the spans. -/
structure Diagnostic.At (source : Nat) (spans : List Span) (d : Diagnostic) : Prop where
  source : d.site.source = source
  span : d.span ∈ spans

namespace Diagnostic
variable {source : Nat} {spans more : List Span} {α : Type} {x : Noted Diagnostic α}

theorem At.mono {d : Diagnostic} (h : d.At source spans) (hsub : spans ⊆ more) :
    d.At source more := ⟨h.source, hsub h.span⟩

theorem all_mono (h : x.All (At source spans)) (hsub : spans ⊆ more) : x.All (At source more) :=
  Noted.All.mono h fun _ hd => hd.mono hsub

end Diagnostic

/-! ### Methods -/

def Parameter.spans (p : Parameter) : List Span :=
  p.span :: optionalSpans Source.Expr.spans (p.default.bind (·.expr))

def Method.spans (m : Method) : List Span :=
  m.span :: (m.parameters.flatMap Parameter.spans ++ blockSpans (m.body.getD []))

def Item.spans : Item → List Span
  | bind span b => span :: b.spans
  | other s => s.spans

theorem Item.ofStatement_spans {s : Source.Statement} :
    ∀ i ∈ ofStatement s, i.spans ⊆ s.spans := by
  intro i hi
  cases s with
  | letIn span bindings =>
    obtain ⟨b, hb, rfl⟩ := List.mem_map.1 hi
    refine List.cons_subset.2 ⟨List.mem_cons_self, fun s hs => List.mem_cons_of_mem _ ?_⟩
    exact List.mem_flatMap.2 ⟨b, hb, hs⟩
  | pass span => cases hi
  | _ =>
    cases List.mem_singleton.1 hi
    exact List.Subset.refl _

theorem Item.toStatement_spans (i : Item) : i.toStatement.spans ⊆ i.spans := by
  cases i with
  | bind span b =>
    show span :: (b.spans ++ []) ⊆ span :: b.spans
    rw [List.append_nil]
    exact List.Subset.refl _
  | other s => exact List.Subset.refl _

theorem Item.asVariable?_spans {i : Item} {param name : String} {value : Source.Expr}
    (h : i.asVariable? param = some (name, value)) : value.spans ⊆ i.spans := by
  cases i with
  | bind span b =>
    rw [asVariable?] at h
    split at h
    · obtain ⟨e, he, hpair⟩ := Option.map_eq_some_iff.1 h
      cases hpair
      refine List.subset_cons_of_subset _ (List.subset_cons_of_subset _ ?_)
      rw [he]
      exact List.subset_append_right _ _
    · cases h
  | other s => cases h

theorem construction?_spans {e : Source.Expr} {type : Source.TypeExpr}
    {args : List Source.Argument} (h : construction? e = some (type, args)) :
    type.spans ++ Source.Argument.listSpans args ⊆ e.spans := by
  fun_induction construction? e with
  | case1 span inner ih => exact List.subset_cons_of_subset _ (ih h)
  | case2 span type' args' =>
    cases h
    exact List.subset_cons_self _ _
  | case3 => cases h

namespace Method
variable {m : Method} {before : List Source.Statement} {type : Source.TypeExpr}
  {args : List Source.Argument}

theorem splitFinal_spans (h : splitFinal (m.body.getD []) = some (before, type, args)) :
    blockSpans before ⊆ m.spans ∧ type.spans ++ Source.Argument.listSpans args ⊆ m.spans := by
  obtain ⟨span, value, hbody, hvalue⟩ := splitFinal_eq_some h
  have hparts : blockSpans before ++ value.spans ⊆ m.spans := by
    rw [spans, hbody, Source.blockSpans_eq, Source.blockSpans_eq, List.flatMap_append]
    refine List.subset_cons_of_subset _ (List.subset_append_of_subset_right _ ?_)
    refine List.append_subset.2 ⟨List.subset_append_left _ _, ?_⟩
    refine List.subset_append_of_subset_right _ ?_
    show value.spans ⊆ (span :: value.spans) ++ []
    rw [List.append_nil]
    exact List.subset_cons_self _ _
  obtain ⟨hbefore, hfinal⟩ := List.append_subset.1 hparts
  exact ⟨hbefore, List.Subset.trans (construction?_spans hvalue) hfinal⟩

theorem steps_spans {i : Item} (hi : i ∈ m.steps) : i.spans ⊆ m.spans := by
  unfold steps statements at hi
  split at hi
  · rename_i before _ hsplit
    obtain ⟨s, hs, hi⟩ := List.mem_flatMap.1 hi
    refine List.Subset.trans (Item.ofStatement_spans i hi)
      (List.Subset.trans ?_ (splitFinal_spans hsplit).1)
    rw [Source.blockSpans_eq]
    exact fun _ h => List.mem_flatMap.2 ⟨s, hs, h⟩
  · cases hi

theorem finalArguments_spans : Source.Argument.listSpans m.finalArguments ⊆ m.spans := by
  unfold finalArguments
  split
  · rename_i before type args hsplit
    exact (List.append_subset.1 (splitFinal_spans hsplit).2).2
  · exact List.nil_subset _

end Method

/-! ### Analysis -/

namespace Progress
variable {f : Frame} {p : Progress}

theorem early?_span {reads : List Source.Ident} {fault : FactoryFault × Span}
    (h : early? f p reads = some fault) : ∃ r ∈ reads, fault.2 = r.span := by
  obtain ⟨r, hr, rfl⟩ := Option.map_eq_some_iff.1 h
  exact ⟨r, List.mem_of_find?_eq_some hr, rfl⟩

theorem changed?_span {names : List Source.Ident} {fault : FactoryFault × Span}
    (h : p.changed? names = some fault) : ∃ n ∈ names, fault.2 = n.span := by
  obtain ⟨n, hn, hreader⟩ := List.exists_of_findSome?_eq_some h
  obtain ⟨v, -, rfl⟩ := Option.map_eq_some_iff.1 hreader
  exact ⟨n, hn, rfl⟩

theorem bindingFault?_span {b : Source.Binding} {fault : FactoryFault × Span}
    (h : bindingFault? f p b = some fault) : fault.2 ∈ b.spans := by
  unfold bindingFault? at h
  dsimp only at h
  split at h
  · rename_i r hr
    cases h
    exact b.reads_spans r (List.mem_of_find?_eq_some hr)
  · rcases Option.or_eq_some_iff.1 h with h | ⟨-, h⟩
    · obtain ⟨r, hr, hspan⟩ := early?_span h
      rw [hspan]
      exact b.reads_spans r hr
    · obtain ⟨n, hn, hspan⟩ := changed?_span h
      rw [hspan, List.mem_singleton.1 hn]
      exact List.mem_cons_self

theorem statementFault?_span {s : Source.Statement} {fault : FactoryFault × Span}
    (h : statementFault? f p s = some fault) : fault.2 ∈ s.spans := by
  unfold statementFault? at h
  split at h
  · rename_i r hr
    split at h
    · cases h
      exact s.span_mem
    · cases h
      exact s.reads_spans r (List.mem_of_find?_eq_some hr)
  · rcases Option.or_eq_some_iff.1 h with h | ⟨-, h⟩
    · rcases Option.or_eq_some_iff.1 h with h | ⟨-, h⟩
      · obtain ⟨r, hr, hspan⟩ := early?_span h
        rw [hspan]
        exact s.reads_spans r hr
      · obtain ⟨n, hn, hspan⟩ := changed?_span h
        rw [hspan]
        exact s.reads_spans n (s.assigned_reads n hn)
    · obtain ⟨⟨what, span⟩, hflow, rfl⟩ := Option.map_eq_some_iff.1 h
      exact s.flow_spans hflow

theorem step_at (i : Item) : (step f p i).All (Diagnostic.At f.site.source i.spans) := by
  cases i with
  | bind span b =>
    rw [step]
    split
    · rename_i fault place hfault
      exact .single ⟨rfl, List.mem_cons_of_mem _ (bindingFault?_span hfault)⟩
    · exact .pure _
  | other s =>
    rw [step]
    split
    · rename_i fault place hfault
      exact .single ⟨rfl, statementFault?_span hfault⟩
    · exact .pure _

theorem run_at {items : List Item} {spans : List Span} (h : ∀ i ∈ items, i.spans ⊆ spans) :
    (run f p items).All (Diagnostic.At f.site.source spans) :=
  .foldlM (fun _ i hi => Diagnostic.all_mono (step_at i) (h i hi)) p

end Progress

theorem kept_spans (target : Descriptor) (args : List Source.Argument) :
    ∀ i ∈ keptInitializers target args, i.value.spans ⊆ Source.Argument.listSpans args := by
  intro i hi
  obtain ⟨-, a, ha, hvalue⟩ := mem_keptInitializers hi
  rw [hvalue, Source.Argument.listSpans_eq]
  exact fun s hs => List.mem_flatMap.2 ⟨a, ha, a.value_spans hs⟩

theorem repeatedReads_subset (seen : List String) (reads : List Source.Ident) :
    repeatedReads seen reads ⊆ reads := by
  induction reads generalizing seen with
  | nil => exact List.Subset.refl _
  | cons r rest ih =>
    rw [repeatedReads]
    split
    · exact List.cons_subset_cons _ (ih seen)
    · exact List.subset_cons_of_subset _ (ih _)

theorem repeatedFaults_at {f : Frame} {p : Progress} {kept : List Initializer}
    {spans : List Span} (h : ∀ i ∈ kept, i.value.spans ⊆ spans) :
    ∀ d ∈ repeatedFaults f p kept, d.At f.site.source spans := by
  intro d hd
  obtain ⟨r, hr, rfl⟩ := List.mem_map.1 hd
  have hread := (List.mem_filter.1 (repeatedReads_subset _ _ hr)).1
  obtain ⟨i, hi, hr⟩ := List.mem_flatMap.1 hread
  exact ⟨rfl, h i hi (i.value.reads_spans r hr)⟩

/-! ### Factories -/

theorem sourceParameter_at {source : Descriptor} {site : Site} {m : Method}
    {faults : List Diagnostic} (h : sourceParameter source site m = .error faults) :
    ∀ d ∈ faults, d.At site.source m.spans := by
  unfold sourceParameter at h
  dsimp only at h
  split at h
  · cases h
    exact List.forall_mem_singleton.2 ⟨rfl, List.mem_cons_self⟩
  · rename_i p rest hparams
    split at h <;> cases h
    refine List.forall_mem_singleton.2 ⟨rfl, List.mem_cons_of_mem _ (List.mem_append_left _ ?_)⟩
    rw [hparams]
    exact List.mem_append_left _ List.mem_cons_self

theorem finalConstruction_at {c : Compilation} {target : Descriptor} {site : Site} {m : Method}
    {faults : List Diagnostic} (h : finalConstruction c target site m = .error faults) :
    ∀ d ∈ faults, d.At site.source m.spans := by
  unfold finalConstruction at h
  dsimp only at h
  split at h
  · cases h
    refine List.forall_mem_singleton.2 ⟨rfl, ?_⟩
    cases hlast : (m.body.getD []).getLast? with
    | none => exact List.mem_cons_self
    | some s =>
      refine List.mem_cons_of_mem _ (List.mem_append_right _ ?_)
      rw [Source.blockSpans_eq]
      exact List.mem_flatMap.2 ⟨s, List.mem_of_getLast? hlast, s.span_mem⟩
  · rename_i before type args hsplit
    split at h <;> cases h
    exact List.forall_mem_singleton.2
      ⟨rfl, (Method.splitFinal_spans hsplit).2 (List.mem_append_left _ type.span_mem)⟩

namespace Factory
variable {c : Compilation} {source target : Descriptor} {declared : DeclaredAt} {m : Method}

/-- What is wrong with a method is at a part of it. -/
theorem ofMethod_at {faults : List Diagnostic}
    (h : Factory.ofMethod c source target declared m = .error faults) :
    ∀ d ∈ faults, d.At declared.source m.spans := by
  unfold Factory.ofMethod at h
  simp only [bind, Except.bind] at h
  split at h
  · rename_i hparam
    cases h
    exact sourceParameter_at hparam
  split at h
  · rename_i hfinal
    cases h
    exact finalConstruction_at hfinal
  rename_i final hfinal
  obtain ⟨before, args⟩ := final
  obtain ⟨type, hsplit, -⟩ := finalConstruction_ok hfinal
  obtain ⟨hbefore, hargs⟩ := Method.splitFinal_spans hsplit
  split at h <;> cases h
  refine List.forall_mem_append.2 ⟨?_, ?_⟩
  · refine Progress.run_at fun i hi => ?_
    obtain ⟨s, hs, hi⟩ := List.mem_flatMap.1 hi
    refine List.Subset.trans (Item.ofStatement_spans i hi) (List.Subset.trans ?_ hbefore)
    rw [Source.blockSpans_eq]
    exact fun _ h => List.mem_flatMap.2 ⟨s, hs, h⟩
  · exact repeatedFaults_at fun i hi =>
      List.Subset.trans (kept_spans target args i hi) (List.append_subset.1 hargs).2

/-- The spans of what lowering reads of a factory. -/
def spans (f : Factory) : List Span :=
  f.parameters.flatMap Parameter.spans ++ blockSpans f.residuals ++
    f.vars.flatMap (·.value.spans) ++ f.initializers.flatMap (·.value.spans)

/-- A factory is made of parts of its method. -/
theorem Describes.spans {f : Factory} (h : f.Describes c target declared m) :
    f.spans ⊆ m.spans := by
  have adds := Progress.run_adds h.clear
  refine List.append_subset.2 ⟨List.append_subset.2 ⟨List.append_subset.2 ⟨?_, ?_⟩, ?_⟩, ?_⟩
  · rw [h.parameters]
    intro s hs
    obtain ⟨p, hp, hs⟩ := List.mem_flatMap.1 hs
    refine List.mem_cons_of_mem _ (List.mem_append_left _ ?_)
    exact List.mem_flatMap.2 ⟨p, List.mem_of_mem_tail hp, hs⟩
  · rw [h.residuals, adds.residuals, Source.blockSpans_eq]
    intro s hs
    obtain ⟨t, ht, hs⟩ := List.mem_flatMap.1 hs
    obtain ⟨i, hi, rfl⟩ := List.mem_map.1 ht
    exact Method.steps_spans (List.mem_filter.1 hi).1 (i.toStatement_spans hs)
  · rw [h.vars]
    intro s hs
    obtain ⟨v, hv, hs⟩ := List.mem_flatMap.1 hs
    have named := List.mem_map_of_mem (f := fun v : Variable => (v.name, v.value)) hv
    rw [adds.vars] at named
    obtain ⟨i, hi, hvalue⟩ := List.mem_filterMap.1 named
    exact Method.steps_spans hi (Item.asVariable?_spans hvalue hs)
  · rw [h.initializers]
    intro s hs
    obtain ⟨i, hi, hs⟩ := List.mem_flatMap.1 hs
    exact Method.finalArguments_spans (kept_spans _ _ i hi hs)

end Factory

/-! ### Lowering -/

namespace Lowering
variable (l : Lowering)

theorem reject_at (e : Source.Expr) (why : Inexpressible) :
    (l.reject e why).All (Diagnostic.At l.site.source e.spans) :=
  .single ⟨rfl, e.span_mem⟩

mutual

theorem expr_at (bound : List String) : (e : Source.Expr) →
    (l.expr bound e).All (Diagnostic.At l.site.source e.spans)
  | .literal _ value => .pure _
  | .ident span name => by
    rw [expr]
    split
    · exact .pure _
    · exact l.reject_at _ _
  | .field span base name =>
    .bind (Diagnostic.all_mono (expr_at bound base) (List.subset_cons_self _ _)) (.pure _)
  | .method span receiver name args => by
    rw [expr]
    split
    · exact l.reject_at _ _
    split
    · exact l.reject_at _ _
    · refine .bind (Diagnostic.all_mono (expr_at bound receiver) ?_)
        (.bind (Diagnostic.all_mono (exprs_at bound args) ?_) (.pure _))
      · exact List.subset_cons_of_subset _ (List.subset_append_left _ _)
      · exact List.subset_cons_of_subset _ (List.subset_append_right _ _)
  | .call span callee args => l.reject_at _ _
  | .choice span value condition otherwise => by
    refine .bind (Diagnostic.all_mono (expr_at bound condition) ?_)
      (.bind (Diagnostic.all_mono (expr_at bound value) ?_)
        (.bind (Diagnostic.all_mono (expr_at bound otherwise) ?_) (.pure _)))
    · exact List.subset_cons_of_subset _
        (List.subset_append_of_subset_left _ (List.subset_append_right _ _))
    · exact List.subset_cons_of_subset _
        (List.subset_append_of_subset_left _ (List.subset_append_left _ _))
    · exact List.subset_cons_of_subset _ (List.subset_append_right _ _)
  | .binary span lhs op rhs => by
    refine .bind (Diagnostic.all_mono (expr_at bound lhs) ?_)
      (.bind (Diagnostic.all_mono (expr_at bound rhs) ?_) (.pure _))
    · exact List.subset_cons_of_subset _ (List.subset_append_left _ _)
    · exact List.subset_cons_of_subset _ (List.subset_append_right _ _)
  | .unary span op operand =>
    .bind (Diagnostic.all_mono (expr_at bound operand) (List.subset_cons_self _ _)) (.pure _)
  | .construct span type args => by
    rw [expr]
    split
    · refine .bind (Diagnostic.all_mono (arguments_at bound args) ?_) (.pure _)
      exact List.subset_cons_of_subset _ (List.subset_append_right _ _)
    · exact l.reject_at _ _
  | .paren span inner => Diagnostic.all_mono (expr_at bound inner) (List.subset_cons_self _ _)

theorem exprs_at (bound : List String) : (es : List Source.Expr) →
    (l.exprs bound es).All (Diagnostic.At l.site.source (Source.Expr.listSpans es))
  | [] => .pure _
  | e :: rest => .bind (Diagnostic.all_mono (expr_at bound e) (List.subset_append_left _ _))
      (.bind (Diagnostic.all_mono (exprs_at bound rest) (List.subset_append_right _ _)) (.pure _))

theorem arguments_at (bound : List String) : (args : List Source.Argument) →
    (l.arguments bound args).All
      (Diagnostic.At l.site.source (Source.Argument.listSpans args))
  | [] => .pure _
  | .positional value :: rest =>
    Diagnostic.all_mono (arguments_at bound rest) (List.subset_append_right _ _)
  | .named name value :: rest => by
    refine .bind (Diagnostic.all_mono (expr_at bound value) ?_)
      (.bind (Diagnostic.all_mono (arguments_at bound rest) ?_) (.pure _))
    · exact List.subset_append_of_subset_left _ (List.subset_cons_self _ _)
    · exact List.subset_append_right _ _

end

theorem optional_at (bound : List String) (e : Option Source.Expr) :
    (l.optional bound e).All
      (Diagnostic.At l.site.source (optionalSpans Source.Expr.spans e)) := by
  cases e with
  | none => exact .pure _
  | some e => exact .bind (l.expr_at bound e) (.pure _)

theorem bindings_at (bound : List String) (bs : List Source.Binding) :
    (l.bindings bound bs).All
      (Diagnostic.At l.site.source (bs.flatMap Source.Binding.spans)) := by
  induction bs generalizing bound with
  | nil => exact .pure _
  | cons b rest ih =>
    refine .bind (Diagnostic.all_mono (l.optional_at bound b.value) ?_)
      (.bind (Diagnostic.all_mono (ih _) (List.subset_append_right _ _)) (.pure _))
    exact List.subset_append_of_subset_left _
      (List.subset_cons_of_subset _ (List.subset_append_right _ _))

theorem assignment_at (bound : List String) (target : Source.Ident) (value : Source.Expr) :
    (l.assignment bound target value).All
      (Diagnostic.At l.site.source (target.span :: value.spans)) := by
  unfold assignment
  split
  · exact .bind (Diagnostic.all_mono (l.expr_at bound value) (List.subset_cons_self _ _)) (.pure _)
  · exact .single ⟨rfl, List.mem_cons_self⟩

mutual

theorem statement_at (bound : List String) : (s : Source.Statement) →
    (l.statement bound s).All (Diagnostic.At l.site.source s.spans)
  | .letIn span bs => Diagnostic.all_mono (l.bindings_at bound bs) (List.subset_cons_self _ _)
  | .assign span target value => by
    refine .bind (Diagnostic.all_mono (l.assignment_at bound target value) ?_) (.pure _)
    exact List.subset_cons_self _ _
  | .expr span value =>
    .bind (Diagnostic.all_mono (l.expr_at bound value) (List.subset_cons_self _ _)) (.pure _)
  | .branch span condition body others last => by
    have parts := List.subset_cons_self span (condition.spans ++ blockSpans body ++
      Source.othersSpans others ++ Source.otherwiseSpans last)
    simp only [List.append_subset] at parts
    obtain ⟨⟨⟨hcondition, hbody⟩, hothers⟩, hlast⟩ := parts
    exact .bind (Diagnostic.all_mono (l.expr_at bound condition) hcondition)
      (.bind (Diagnostic.all_mono (block_at bound body) hbody)
        (.bind (Diagnostic.all_mono (otherwise_at bound last) hlast)
          (.bind (Diagnostic.all_mono (branches_at bound _ others) hothers) (.pure _))))
  | .loop span condition body => .single ⟨rfl, Source.Statement.span_mem _⟩
  | .ret span value => .single ⟨rfl, Source.Statement.span_mem _⟩
  | .pass span => .pure _

theorem block_at (bound : List String) : (body : List Source.Statement) →
    (l.block bound body).All (Diagnostic.At l.site.source (blockSpans body))
  | [] => .pure _
  | s :: rest => .bind (Diagnostic.all_mono (statement_at bound s) (List.subset_append_left _ _))
      (.bind (Diagnostic.all_mono (block_at _ rest) (List.subset_append_right _ _)) (.pure _))

theorem branches_at (bound : List String) (last : List Residual) :
    (others : List (Source.Expr × List Source.Statement)) →
    (l.branches bound last others).All
      (Diagnostic.At l.site.source (Source.othersSpans others))
  | [] => .pure _
  | (condition, body) :: rest => by
    have parts := List.Subset.refl
      (condition.spans ++ blockSpans body ++ Source.othersSpans rest)
    simp only [List.append_subset] at parts
    obtain ⟨⟨hcondition, hbody⟩, hrest⟩ := parts
    exact .bind (Diagnostic.all_mono (branches_at bound last rest) hrest)
      (.bind (Diagnostic.all_mono (l.expr_at bound condition) hcondition)
        (.bind (Diagnostic.all_mono (block_at bound body) hbody) (.pure _)))

theorem otherwise_at (bound : List String) : (last : Option (List Source.Statement)) →
    (l.otherwise bound last).All (Diagnostic.At l.site.source (Source.otherwiseSpans last))
  | none => .pure _
  | some body => block_at bound body

end

end Lowering

/-! ### Plans -/

namespace Mapping
variable (m : Mapping) (c : Compilation)

theorem initializerTrees_at (l : Lowering) (visible : List String) (inits : List Initializer) :
    (initializerTrees l visible inits).All
      (Diagnostic.At l.site.source (inits.flatMap (·.value.spans))) := by
  refine .mapM fun i hi => .bind (Diagnostic.all_mono (l.expr_at visible i.value) ?_) (.pure _)
  exact fun s hs => List.mem_flatMap.2 ⟨i, hi, hs⟩

theorem parameterPlans_at (l : Lowering) (before : List String) (ps : List Parameter) :
    (parameterPlans l before ps).All
      (Diagnostic.At l.site.source (ps.flatMap Parameter.spans)) := by
  induction ps generalizing before with
  | nil => exact .pure _
  | cons p rest ih =>
    refine .bind (Diagnostic.all_mono (l.optional_at before _) ?_)
      (.bind (Diagnostic.all_mono (ih _) (List.subset_append_right _ _)) (.pure _))
    exact List.subset_append_of_subset_left _ (List.subset_cons_self _ _)

theorem degenerateStage_at (f : Factory) :
    (m.degenerateStage c f).All (Diagnostic.At m.declared.source f.spans) :=
  .bind (Diagnostic.all_mono (initializerTrees_at (m.lowering c f) _ f.initializers)
    (List.subset_append_right _ _)) (.pure _)

theorem lower_at (f : Factory) :
    (m.lower c f).All (Diagnostic.At m.declared.source f.spans) := by
  have parts := List.Subset.refl f.spans
  rw [Factory.spans, List.append_subset, List.append_subset, List.append_subset] at parts
  obtain ⟨⟨⟨hparameters, hresiduals⟩, hvars⟩, hinits⟩ := parts
  let l := m.lowering c f
  refine .bind (Diagnostic.all_mono (parameterPlans_at l [] f.parameters) hparameters)
    (.bind (Diagnostic.all_mono (l.block_at _ f.residuals) hresiduals)
      (.bind (.mapM fun v hv => ?_)
        (.bind (Diagnostic.all_mono (initializerTrees_at l _ f.initializers) hinits) (.pure _))))
  refine .bind (Diagnostic.all_mono (l.expr_at _ v.value) ?_) (.pure _)
  exact fun s hs => hvars (List.mem_flatMap.2 ⟨v, hv, hs⟩)

theorem planStep_at (merged : Option Lambda) (f : Factory) :
    (m.planStep c merged f).All (Diagnostic.At m.declared.source f.spans) := by
  unfold planStep
  split
  · cases merged with
    | some stage => exact .pure _
    | none => exact .map _ (m.degenerateStage_at c f)
  · exact .map _ (m.lower_at c f)

theorem planFactories_at (merged : Option Lambda) (fs : List Factory) :
    (m.planFactories c merged fs).All
      (Diagnostic.At m.declared.source (fs.flatMap Factory.spans)) := by
  induction fs generalizing merged with
  | nil => exact .pure _
  | cons f rest ih =>
    rw [planFactories_cons]
    exact .bind (Diagnostic.all_mono (m.planStep_at c merged f) (List.subset_append_left _ _))
      (.bind (Diagnostic.all_mono (ih _) (List.subset_append_right _ _)) (.pure _))

theorem plan_at :
    (m.plan c).All (Diagnostic.At m.declared.source (m.factories.flatMap Factory.spans)) :=
  .bind (m.planFactories_at c none m.factories) (.pure _)

theorem build_at (source target : Descriptor) (declared : DeclaredAt) :
    (Mapping.build c source target declared).All
      (Diagnostic.At declared.source (target.methods.flatMap Method.spans)) := by
  intro d hd
  obtain ⟨result, hresult, hd⟩ := List.mem_flatMap.1 hd
  obtain ⟨method, hmethod, rfl⟩ := List.mem_map.1 hresult
  split at hd
  · cases hd
  · rename_i faults hfaults
    refine (Factory.ofMethod_at hfaults d hd).mono fun s hs => ?_
    exact List.mem_flatMap.2 ⟨method, (List.mem_filter.1 hmethod).1, hs⟩

end Mapping

/-- The diagnostics of a mapping point at methods of its target. -/
theorem Compilation.unit_at (c : Compilation) (source target : Descriptor)
    (declared : DeclaredAt) :
    (c.unit source target declared).All
      (Diagnostic.At declared.source (target.methods.flatMap Method.spans)) := by
  refine .bind (Mapping.build_at c source target declared)
    (.bind (Diagnostic.all_mono (Mapping.plan_at _ c) ?_) (.pure _))
  intro s hs
  obtain ⟨f, hf, hs⟩ := List.mem_flatMap.1 hs
  obtain ⟨method, hmethod, hof⟩ := Mapping.factory_of_build c hf
  exact List.mem_flatMap.2 ⟨method, hmethod, (Factory.ofMethod_describes hof).spans hs⟩

end StagedMapping
