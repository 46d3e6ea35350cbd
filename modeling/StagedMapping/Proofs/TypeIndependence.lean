import StagedMapping.Proofs.Agreement
import StagedMapping.Proofs.Outcomes
import StagedMapping.Proofs.PlanContents

/-! What does not depend on types. The written types of a body give its variables and locals
their types and name the constructions in its trees. No step of the analysis asks for a type,
and no note of the lowering is about one, so a pass in which written types refer to something
else, or to nothing, accepts a method all the same as long as its final construction is of the
target (`Factory.ofMethod_alike`), and lowers it with the same notes (`Mapping.lower_alike`). -/
namespace StagedMapping

/-- A variable without its type. -/
def Variable.untyped (v : Variable) : String × Source.Expr × Span := (v.name, v.value, v.span)

/-! ### Analysis -/

namespace Progress

/-- The same steps were taken, but types may differ. -/
structure Alike (p q : Progress) : Prop where
  declared : q.declared = p.declared
  staged : q.staged = p.staged
  vars : q.vars.map Variable.untyped = p.vars.map Variable.untyped
  residuals : q.residuals = p.residuals
  residualLocals : q.residualLocals.map (·.1) = p.residualLocals.map (·.1)

variable {f : Frame} {p q : Progress}

theorem Alike.isTainted (h : p.Alike q) : q.isTainted = p.isTainted := by
  have hany (vars : List Variable) (name : String) :
      vars.any (·.name == name) = (vars.map Variable.untyped).any (·.1 == name) := by
    rw [List.any_map]
    rfl
  funext name
  rw [Progress.isTainted, Progress.isTainted, hany, hany, h.vars]

theorem Alike.bindingFault? (h : p.Alike q) (b : Source.Binding) :
    bindingFault? f q b = bindingFault? f p b := by
  unfold Progress.bindingFault? early? isEarly changed? reader?
  rw [h.isTainted, h.declared, h.staged]

theorem Alike.statementFault? (h : p.Alike q) (s : Source.Statement) :
    statementFault? f q s = statementFault? f p s := by
  unfold Progress.statementFault? early? isEarly changed? reader?
  rw [h.isTainted, h.declared, h.staged]

theorem Alike.declare (h : p.Alike q) (s s' : TypeScope) (name : String) :
    Alike { p with types := s, declared := p.declared ++ [name] }
      { q with types := s', declared := q.declared ++ [name] } :=
  { h with declared := congrArg (· ++ [name]) h.declared }

theorem Alike.addResidual (h : p.Alike q) (span : Span) (b : Source.Binding) (type type' : TypeRef) :
    (p.addResidual span b type).Alike (q.addResidual span b type') :=
  { h with
    residuals := by simp [Progress.addResidual, h.residuals]
    residualLocals := by simp [Progress.addResidual, h.residualLocals] }

/-- A local becomes a variable in both or in neither. -/
theorem Alike.addBinding (h : p.Alike q) (span : Span) (b : Source.Binding) :
    (p.addBinding f span b).Alike (q.addBinding f span b) := by
  have hdeclared := h.declare (p.types.bind b.name.text (p.types.ofBinding b))
    (q.types.bind b.name.text (q.types.ofBinding b)) b.name.text
  unfold Progress.addBinding
  dsimp only
  split
  · split
    · exact { hdeclared with
        staged := by rw [h.staged]
        vars := by simp [h.vars, Variable.untyped] }
    · exact hdeclared.addResidual span b _ _
  · exact hdeclared.addResidual span b _ _

/-- A step is refused of both or of neither. -/
theorem Alike.step (h : p.Alike q) (i : Item) :
    (q.step f i).notes = (p.step f i).notes ∧ (p.step f i).value.Alike (q.step f i).value := by
  cases i with
  | bind span b =>
    rw [Progress.step, Progress.step, h.bindingFault?]
    cases Progress.bindingFault? f p b with
    | some fault => exact ⟨rfl, h.declare _ _ _⟩
    | none => exact ⟨rfl, h.addBinding span b⟩
  | other s =>
    rw [Progress.step, Progress.step, h.statementFault?]
    cases Progress.statementFault? f p s with
    | some fault => exact ⟨rfl, h⟩
    | none => exact ⟨rfl, { h with residuals := congrArg (· ++ [s]) h.residuals }⟩

theorem Alike.run (h : p.Alike q) (items : List Item) :
    (items.foldlM (Progress.step f) q).notes = (items.foldlM (Progress.step f) p).notes ∧
      (items.foldlM (Progress.step f) p).value.Alike (items.foldlM (Progress.step f) q).value := by
  induction items generalizing p q with
  | nil => exact ⟨rfl, h⟩
  | cons i rest ih =>
    obtain ⟨hnotes, hnext⟩ := h.step i (f := f)
    obtain ⟨hrest, hlast⟩ := ih hnext
    rw [List.foldlM_cons, List.foldlM_cons, Noted.bind_notes, Noted.bind_notes, hnotes, hrest]
    exact ⟨rfl, hlast⟩

theorem Alike.repeatedFaults (h : p.Alike q) (kept : List Initializer) :
    repeatedFaults f q kept = repeatedFaults f p kept := by
  unfold StagedMapping.repeatedFaults
  rw [h.isTainted]

end Progress

namespace Factory

/-- The same factory, but types may differ. -/
structure Alike (f g : Factory) : Prop where
  method : g.method = f.method
  sourceParam : g.sourceParam = f.sourceParam
  parameters : g.parameters = f.parameters
  vars : g.vars.map Variable.untyped = f.vars.map Variable.untyped
  initializers : g.initializers = f.initializers
  residuals : g.residuals = f.residuals
  residualLocals : g.residualLocals.map (·.1) = f.residualLocals.map (·.1)

theorem Alike.isDegenerate {f g : Factory} (h : f.Alike g) : g.isDegenerate = f.isDegenerate := by
  have hvars (vars : List Variable) : vars.isEmpty = (vars.map Variable.untyped).isEmpty := by
    rw [List.isEmpty_map]
  rw [Factory.isDegenerate, Factory.isDegenerate, hvars g.vars, hvars f.vars, h.parameters, h.vars,
    h.residuals]

theorem conclude_alike {target : Descriptor} {m : Method} {f : Frame}
    {args : List Source.Argument} {x y : Noted Diagnostic Progress}
    (hxy : y.notes = x.notes ∧ x.value.Alike y.value) {g : Factory}
    (h : conclude target m f args x = .ok g) :
    ∃ g', conclude target m f args y = .ok g' ∧ g.Alike g' := by
  obtain ⟨hnotes, halike⟩ := hxy
  unfold conclude at h ⊢
  rw [hnotes, halike.repeatedFaults]
  split at h
  · cases h
    exact ⟨_, rfl, rfl, rfl, rfl, halike.vars, rfl, halike.residuals, halike.residualLocals⟩
  · cases h

theorem analyze_alike {c : Compilation} (d : Compilation) {target : Descriptor}
    {declared : DeclaredAt} {m : Method} {param : Parameter} {before : List Source.Statement}
    {args : List Source.Argument} {f : Factory}
    (h : analyze c target declared m param before args = .ok f) :
    ∃ g, analyze d target declared m param before args = .ok g ∧ f.Alike g := by
  refine conclude_alike (Progress.Alike.run ?_ _) h
  exact ⟨rfl, rfl, rfl, rfl, rfl⟩

/-- A method is accepted in every pass in which its final construction is of the target. -/
theorem ofMethod_alike {c : Compilation} (d : Compilation) {source target : Descriptor}
    {declared : DeclaredAt} {m : Method} {f : Factory}
    (h : ofMethod c source target declared m = .ok f)
    (hfinal : ∀ before type args, splitFinal (m.body.getD []) = some (before, type, args) →
      target.isTypeOf (d.resolve declared.source target.typeParams type).value = true) :
    ∃ g, ofMethod d source target declared m = .ok g ∧ f.Alike g := by
  rw [ofMethod_eq] at h ⊢
  dsimp only at h ⊢
  obtain ⟨param, hparam, h⟩ := bind_eq_ok.1 h
  obtain ⟨⟨before, args⟩, hsplit, h⟩ := bind_eq_ok.1 h
  obtain ⟨type, htype, -⟩ := finalConstruction_ok hsplit
  obtain ⟨g, hg, halike⟩ := analyze_alike d h
  refine ⟨g, bind_eq_ok.2 ⟨param, hparam, bind_eq_ok.2 ⟨(before, args), ?_, hg⟩⟩, halike⟩
  unfold finalConstruction
  simp only [htype]
  rw [if_pos (hfinal _ _ _ htype)]

end Factory

/-! ### Lowering -/

namespace Lowering

/-- The same place, in another pass. -/
def inPass (l : Lowering) (d : Compilation) : Lowering := { l with compilation := d }

variable (l : Lowering) (d : Compilation)

mutual

theorem expr_notes (bound : List String) : (e : Source.Expr) →
    ((l.inPass d).expr bound e).notes = (l.expr bound e).notes
  | .literal .. => rfl
  | .ident span name => by
    rw [expr, expr]
    split <;> rfl
  | .field _ base name => by simp [expr, expr_notes bound base]
  | .method span receiver name args => by
    rw [expr, expr]
    split
    · rfl
    · split
      · rfl
      · simp [expr_notes bound receiver, exprs_notes bound args]
  | .call .. => rfl
  | .choice _ value condition otherwise => by
    simp [expr, expr_notes bound condition, expr_notes bound value, expr_notes bound otherwise]
  | .binary _ lhs op rhs => by simp [expr, expr_notes bound lhs, expr_notes bound rhs]
  | .unary _ op operand => by simp [expr, expr_notes bound operand]
  | .construct span type args => by
    rw [expr, expr]
    split
    · simp [arguments_notes bound args]
    · rfl
  | .paren _ inner => by rw [expr, expr, expr_notes bound inner]

theorem exprs_notes (bound : List String) : (es : List Source.Expr) →
    ((l.inPass d).exprs bound es).notes = (l.exprs bound es).notes
  | [] => rfl
  | e :: rest => by simp [exprs, expr_notes bound e, exprs_notes bound rest]

theorem arguments_notes (bound : List String) : (args : List Source.Argument) →
    ((l.inPass d).arguments bound args).notes = (l.arguments bound args).notes
  | [] => rfl
  | .positional _ :: rest => by rw [arguments, arguments, arguments_notes bound rest]
  | .named name value :: rest => by
    simp [arguments, expr_notes bound value, arguments_notes bound rest]

end

theorem optional_notes (bound : List String) (e : Option Source.Expr) :
    ((l.inPass d).optional bound e).notes = (l.optional bound e).notes := by
  cases e with
  | none => rfl
  | some e => simp [optional, expr_notes]

/-- Locals are bound whatever their types are. -/
theorem bindings_notes (bound : List String) (bs : List Source.Binding) :
    ((l.inPass d).bindings bound bs).notes = (l.bindings bound bs).notes ∧
      ((l.inPass d).bindings bound bs).value.2 = (l.bindings bound bs).value.2 := by
  induction bs generalizing bound with
  | nil => exact ⟨rfl, rfl⟩
  | cons b rest ih =>
    obtain ⟨hnotes, hafter⟩ := ih (b.name.text :: bound)
    simp [bindings, optional_notes, hnotes, hafter]

theorem assignment_notes (bound : List String) (target : Source.Ident) (value : Source.Expr) :
    ((l.inPass d).assignment bound target value).notes = (l.assignment bound target value).notes := by
  rw [assignment, assignment]
  split
  · simp [expr_notes]
  · rfl

theorem statement_bound (bound : List String) (s : Source.Statement) :
    ((l.inPass d).statement bound s).value.2 = (l.statement bound s).value.2 := by
  cases s with
  | letIn span bs =>
    rw [statement, statement]
    exact (bindings_notes l d bound bs).2
  | _ => simp [statement]

mutual

theorem statement_notes (bound : List String) : (s : Source.Statement) →
    ((l.inPass d).statement bound s).notes = (l.statement bound s).notes
  | .letIn _ bs => by rw [statement, statement, (bindings_notes l d bound bs).1]
  | .assign _ target value => by simp [statement, assignment_notes]
  | .expr _ value => by simp [statement, expr_notes]
  | .branch _ condition body others last => by
    simp [statement, expr_notes, block_notes bound body, otherwise_notes bound last,
      branches_notes bound _ (l.otherwise bound last).value others]
  | .loop .. => rfl
  | .ret .. => rfl
  | .pass _ => rfl

theorem block_notes (bound : List String) : (body : List Source.Statement) →
    ((l.inPass d).block bound body).notes = (l.block bound body).notes
  | [] => rfl
  | s :: rest => by
    simp [block, statement_notes bound s, statement_bound, block_notes _ rest]

theorem branches_notes (bound : List String) (last last' : List Residual) :
    (others : List (Source.Expr × List Source.Statement)) →
    ((l.inPass d).branches bound last others).notes = (l.branches bound last' others).notes
  | [] => rfl
  | (condition, body) :: rest => by
    simp [branches, branches_notes bound last last' rest, expr_notes, block_notes bound body]

theorem otherwise_notes (bound : List String) : (last : Option (List Source.Statement)) →
    ((l.inPass d).otherwise bound last).notes = (l.otherwise bound last).notes
  | none => rfl
  | some body => by rw [otherwise, otherwise, block_notes bound body]

end

end Lowering

/-! ### Plans -/

namespace Mapping
variable (m : Mapping) {f g : Factory}

theorem parameterPlans_notes (l : Lowering) (d : Compilation) (before : List String)
    (ps : List Parameter) :
    (parameterPlans (l.inPass d) before ps).notes = (parameterPlans l before ps).notes := by
  induction ps generalizing before with
  | nil => rfl
  | cons p rest ih => simp [parameterPlans, Lowering.optional_notes, ih]

theorem initializerTrees_notes (l : Lowering) (d : Compilation) (visible : List String)
    (inits : List Initializer) : (initializerTrees (l.inPass d) visible inits).notes =
      (initializerTrees l visible inits).notes := by
  simp [initializerTrees, Noted.mapM_notes, Lowering.expr_notes]

theorem lowering_alike (c d : Compilation) (h : f.Alike g) :
    m.lowering d g = (m.lowering c f).inPass d := by
  rw [lowering, h.method]
  rfl

theorem vars_notes (l : Lowering) (d : Compilation) (visible : List String) {vs ws : List Variable}
    (h : ws.map Variable.untyped = vs.map Variable.untyped) :
    (ws.flatMap fun v => ((l.inPass d).expr visible v.value).notes) =
      vs.flatMap fun v => (l.expr visible v.value).notes := by
  have huntyped (vs : List Variable) : (vs.flatMap fun v => (l.expr visible v.value).notes) =
      (vs.map Variable.untyped).flatMap fun v => (l.expr visible v.2.1).notes := by
    rw [List.flatMap_map]
    rfl
  simp only [Lowering.expr_notes]
  rw [huntyped, huntyped, h]

theorem lower_alike (c d : Compilation) (h : f.Alike g) :
    (m.lower d g).notes = (m.lower c f).notes := by
  have hnames : g.vars.map (·.name) = f.vars.map (·.name) := by
    have hfirst := congrArg (List.map Prod.fst) h.vars
    rwa [List.map_map, List.map_map] at hfirst
  unfold lower
  simp only [Noted.bind_notes, Noted.pure_notes, List.append_nil, Noted.mapM_notes]
  rw [m.lowering_alike c d h, h.parameters, h.sourceParam, h.residuals, h.residualLocals,
    h.initializers, hnames, parameterPlans_notes, initializerTrees_notes, Lowering.block_notes,
    vars_notes _ d _ h.vars]

theorem degenerateStage_alike (c d : Compilation) (h : f.Alike g) :
    (m.degenerateStage d g).notes = (m.degenerateStage c f).notes := by
  unfold degenerateStage
  simp only [Noted.bind_notes, Noted.pure_notes, List.append_nil]
  rw [m.lowering_alike c d h, h.sourceParam, h.initializers, initializerTrees_notes]

end Mapping
end StagedMapping
