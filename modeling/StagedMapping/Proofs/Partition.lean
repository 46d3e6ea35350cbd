import StagedMapping.Proofs.Classification
import StagedMapping.Proofs.Occurrence

/-! The steps of an accepted body, told apart. `Item.Sorted` goes through the steps before
the construction: one whose value mentions the source is the next variable, and any other
one the next residual, which keeps clear of the source and of the variables before it at
whatever depth (`Source.Statement.SourceFree`). The variables and residuals of a factory
come out of its body in this way, and nothing else does (`Factory.ofMethod_sorted`). -/
namespace StagedMapping
open Source (Statement Binding)

/-- A statement that, at whatever depth, mentions neither the source nor a variable, assigns
neither, and has no loop and no return. -/
structure Source.Statement.SourceFree (source : String) (tainted : List String)
    (s : Statement) : Prop where
  unread : ∀ t, Statement.Within t s → ∀ e ∈ t.expressions, ∀ n, e.Mentions n →
    n ≠ source ∧ n ∉ tainted
  unassigned : ∀ t, Statement.Within t s → ∀ r, t.target? = some r →
    r.text ≠ source ∧ r.text ∉ tainted
  unlooped : ∀ span condition body, ¬ Statement.Within (.loop span condition body) s
  unreturned : ∀ span value, ¬ Statement.Within (.ret span value) s

/-- Steps in order, each of which is the next variable or the next residual. The names of
the variables so far are `tainted`. -/
inductive Item.Sorted (source : String) :
    (tainted : List String) → List Item → List Variable → List Statement → Prop where
  | nil {tainted : List String} : Sorted source tainted [] [] []
  | variable {tainted : List String} {span : Span} {b : Binding} {rest : List Item}
    {type : TypeRef} {value : Source.Expr} {vars : List Variable} {residuals : List Statement}
    (hv : b.value = some value) (hs : value.Mentions source)
    (h : Sorted source (tainted ++ [b.name.text]) rest vars residuals) :
    Sorted source tainted (.bind span b :: rest) (⟨b.name.text, type, value, b.name.span⟩ :: vars)
      residuals
  | residual {tainted : List String} {i : Item} {rest : List Item} {vars : List Variable}
    {residuals : List Statement} (hs : i.toStatement.SourceFree source tainted)
    (h : Sorted source tainted rest vars residuals) :
    Sorted source tainted (i :: rest) vars (i.toStatement :: residuals)

/-! ### One step -/

theorem Source.Statement.sourceFree_of_reads {source : String} {tainted : List String}
    {s : Statement} (hr : ∀ r ∈ s.reads, r.text ≠ source ∧ r.text ∉ tainted)
    (hf : s.controlFlow? = none) : s.SourceFree source tainted where
  unread := by
    intro t ht e he n hn
    obtain ⟨r, hm, rfl⟩ := hn.reads
    exact hr r (ht.reads r (Statement.expressions_reads he r hm))
  unassigned := fun t ht r h => hr r (ht.reads r (Statement.target_reads h))
  unlooped := fun span condition body h => by cases h.flow hf
  unreturned := fun span value h => by cases h.flow hf

theorem Item.toStatement_reads (i : Item) : i.toStatement.reads = i.reads := by
  cases i with
  | bind span b => exact List.append_nil _
  | other s => rfl

namespace Progress
variable {f : Frame} {p : Progress}

theorem isTainted_eq_false {n : String} :
    p.isTainted n = false ↔ n ∉ p.vars.map (·.name) := by
  simp [isTainted]

/-- A step that is taken up as a residual. -/
theorem Clear.residual {i : Item} (h : Clear f p i)
    (hv : i.isVariable f.sourceParam = false) :
    i.toStatement.SourceFree f.sourceParam (p.vars.map (·.name)) := by
  apply Statement.sourceFree_of_reads
  · rw [i.toStatement_reads]
    exact fun r hr => ⟨h.sourceFree hv r hr, isTainted_eq_false.1 (h.untainted r hr)⟩
  · cases i with
    | bind span b => rfl
    | other s => exact h.straight s rfl

/-- A step without a fault adds itself to the variables or to the residuals. -/
theorem step_sorted {i : Item} (h : (step f p i).notes = []) :
    (∃ span b type value, i = .bind span b ∧ b.value = some value ∧
      value.Mentions f.sourceParam ∧
      (step f p i).value.vars = p.vars ++ [⟨b.name.text, type, value, b.name.span⟩] ∧
      (step f p i).value.residuals = p.residuals) ∨
    (i.toStatement.SourceFree f.sourceParam (p.vars.map (·.name)) ∧
      (step f p i).value.vars = p.vars ∧
      (step f p i).value.residuals = p.residuals ++ [i.toStatement]) := by
  have hclear := step_clear h
  cases hv : i.isVariable f.sourceParam with
  | false =>
    refine .inr ⟨hclear.residual hv, ?_⟩
    cases i with
    | bind span b =>
      rw [step] at h ⊢
      split at h
      · cases h
      · rw [Noted.pure_value, addBinding_residual hv]
        exact ⟨rfl, rfl⟩
    | other s =>
      rw [step] at h ⊢
      split at h
      · cases h
      · exact ⟨rfl, rfl⟩
  | true =>
    cases i with
    | other s => cases hv
    | bind span b =>
      have hs := hv
      rw [Item.isVariable, List.contains_eq_mem, decide_eq_true_eq] at hs
      cases hb : b.value with
      | none =>
        rw [hb] at hs
        cases hs
      | some value =>
        rw [hb] at hs
        refine .inl ⟨span, b, p.types.ofBinding b, value, rfl, hb, Source.Expr.mentions_iff.2 hs, ?_⟩
        rw [step] at h ⊢
        split at h
        · cases h
        · rw [Noted.pure_value, addBinding_variable hb hv]
          exact ⟨rfl, rfl⟩

/-! ### All steps -/

theorem run_sorted {items : List Item} (h : (run f p items).notes = []) :
    ∃ vars residuals, (run f p items).value.vars = p.vars ++ vars ∧
      (run f p items).value.residuals = p.residuals ++ residuals ∧
      Item.Sorted f.sourceParam (p.vars.map (·.name)) items vars residuals := by
  induction items generalizing p with
  | nil => exact ⟨[], [], (List.append_nil _).symm, (List.append_nil _).symm, .nil⟩
  | cons i rest ih =>
    rw [run_cons, Noted.bind_notes, List.append_eq_nil_iff] at h
    obtain ⟨vars, residuals, hvars, hresiduals, hrest⟩ := ih h.2
    rw [run_cons, Noted.bind_value, hvars, hresiduals]
    rcases step_sorted h.1 with ⟨span, b, type, value, rfl, hb, hs, hv, hr⟩ | ⟨hs, hv, hr⟩
    · refine ⟨⟨b.name.text, type, value, b.name.span⟩ :: vars, residuals, ?_, by rw [hr], ?_⟩
      · rw [hv, List.append_assoc, List.singleton_append]
      · rw [hv, List.map_append] at hrest
        exact .variable hb hs hrest
    · refine ⟨vars, i.toStatement :: residuals, by rw [hv], ?_, ?_⟩
      · rw [hr, List.append_assoc, List.singleton_append]
      · rw [hv] at hrest
        exact .residual hs hrest

end Progress

/-! ### Methods -/

theorem splitFinal_eq_some {body before : List Statement} {type : Source.TypeExpr}
    {args : List Source.Argument} (h : splitFinal body = some (before, type, args)) :
    ∃ span value, body = before ++ [.ret span (some value)] ∧
      construction? value = some (type, args) := by
  rw [splitFinal] at h
  split at h
  case h_2 => cases h
  case h_1 span value hlast =>
  obtain ⟨c, hc, he⟩ := Option.map_eq_some_iff.1 h
  cases he
  obtain ⟨init, rfl⟩ := List.getLast?_eq_some_iff.1 hlast
  exact ⟨span, value, by rw [List.dropLast_concat], hc⟩

/-- A body that is accepted ends with a construction of the target. -/
theorem Factory.finalType_of_ofMethod {c : Compilation} {source target : Descriptor}
    {declared : DeclaredAt} {m : Method} {f : Factory}
    (h : Factory.ofMethod c source target declared m = .ok f) :
    ∃ before type args, splitFinal (m.body.getD []) = some (before, type, args) ∧
      target.isTypeOf (c.resolve declared.source target.typeParams type).value = true := by
  rw [Factory.ofMethod] at h
  simp only [bind, Except.bind] at h
  split at h
  case h_1 => cases h
  case h_2 =>
  split at h
  case h_1 => cases h
  case h_2 final hfinal =>
  obtain ⟨type, htype, hbuilt⟩ := finalConstruction_ok hfinal
  exact ⟨final.1, type, final.2, htype, hbuilt⟩

theorem Factory.splitFinal_of_ofMethod {c : Compilation} {source target : Descriptor}
    {declared : DeclaredAt} {m : Method} {f : Factory}
    (h : Factory.ofMethod c source target declared m = .ok f) :
    ∃ before type args, splitFinal (m.body.getD []) = some (before, type, args) := by
  obtain ⟨before, type, args, hsplit, -⟩ := finalType_of_ofMethod h
  exact ⟨before, type, args, hsplit⟩

/-- A method with both kinds of steps, some of them in one `let` and some in branches. -/
def Sample.sorted : Method :=
  method "u" "b"
    [.letIn place [⟨⟨"k", place⟩, none, some (text "!")⟩,
        ⟨⟨"v", place⟩, none, some (.binary place (field "u" "name") .add (name "k"))⟩],
      .pass place,
      .branch place (name "b") [given "w" (text "?")]
        [(name "b", [.assign place ⟨"b", place⟩ (name "b")])] (some [.pass place])]
    (name "v")

/-- The body of a factory ends with the return of a construction, and the steps before it
are the variables and the residuals of the factory, in order and each of them once. -/
theorem Factory.ofMethod_sorted {c : Compilation} {source target : Descriptor}
    {declared : DeclaredAt} {m : Method} {f : Factory}
    (h : Factory.ofMethod c source target declared m = .ok f) :
    ∃ param rest before span value type args,
      m.parameters = param :: rest ∧ f.sourceParam = param.name ∧
      m.body = some (before ++ [.ret span (some value)]) ∧
      construction? value = some (type, args) ∧
      Item.Sorted param.name [] (before.flatMap Item.ofStatement) f.vars f.residuals := by
  have hf := Factory.ofMethod_describes h
  obtain ⟨param, rest, hparams⟩ := List.exists_cons_of_ne_nil hf.nonempty
  have hname : m.sourceName = param.name := by rw [Method.sourceName, hparams]; rfl
  obtain ⟨before, type, args, hsplit⟩ := splitFinal_of_ofMethod h
  obtain ⟨span, value, hbody, hvalue⟩ := splitFinal_eq_some hsplit
  refine ⟨param, rest, before, span, value, type, args, hparams, by rw [hf.sourceParam, hname],
    ?_, hvalue, ?_⟩
  · cases hb : m.body with
    | none => simp [hb] at hbody
    | some body => simpa [hb] using hbody
  · obtain ⟨vars, residuals, hvars, hresiduals, hsorted⟩ := Progress.run_sorted hf.clear
    rw [hf.vars, hf.residuals, hvars, hresiduals]
    rw [Method.steps, Method.statements, hsplit] at hsorted
    exact hname ▸ hsorted

theorem Factory.ofMethod_sorted_sample :
    ∃ f, Factory.ofMethod Sample.compilation Sample.user Sample.target ⟨0, Sample.place⟩
        Sample.sorted = .ok f ∧ f.vars.map (·.name) = ["v"] ∧ f.residuals.length = 2 ∧
      ∃ before span value,
        Sample.sorted.body = some (before ++ [.ret span (some value)]) ∧
        Item.Sorted "u" [] (before.flatMap Item.ofStatement) f.vars f.residuals := by
  refine ⟨_, rfl, rfl, rfl, ?_⟩
  obtain ⟨param, rest, before, span, value, type, args, hparams, -, hbody, -, hsorted⟩ :=
    Factory.ofMethod_sorted (rfl : Factory.ofMethod Sample.compilation Sample.user
      Sample.target ⟨0, Sample.place⟩ Sample.sorted = .ok _)
  cases hparams
  exact ⟨before, span, value, hbody, hsorted⟩

end StagedMapping
