import StagedMapping.Pass
import StagedMapping.Proofs.PlanSteps

/-! What factories depend on. The analysis and the planning of a factory ask a pass two
things: what written types refer to in the source of the target, and which type parameters
and properties types have. Passes that answer alike (`Compilation.Agree`) accept the same
factories and plan them alike, whatever else they hold and whatever the number of the source
is in each of them; that number is only told in diagnostics (`Compilation.unit_moved`). -/
namespace StagedMapping

/-! ### Passes that answer alike -/

/-- The part of a descriptor that other types see. -/
def Descriptor.outline (d : Descriptor) : Descriptor := { d with methods := [], declared := none }

/-- What is asked about source `i` in the one pass and about source `j` in the other has the
same answers. -/
structure Compilation.Agree (c d : Compilation) (i j : Nat) : Prop where
  resolve : ∀ generics t, d.resolve j generics t = c.resolve i generics t
  outline : ∀ t, (d.descriptor? t).map Descriptor.outline = (c.descriptor? t).map Descriptor.outline

/-- The diagnostic, for a source of another number. -/
def Diagnostic.moved (j : Nat) (d : Diagnostic) : Diagnostic :=
  { d with site := { d.site with source := j } }

namespace Compilation
variable {c d : Compilation} {i j : Nat}

theorem Agree.refl (c : Compilation) (i : Nat) : c.Agree c i i := ⟨fun _ _ => rfl, fun _ => rfl⟩

theorem propertyType?_eq (c : Compilation) (owner : TypeRef) (property : String) :
    c.propertyType? owner property = ((c.descriptor? owner).map Descriptor.outline).bind fun d =>
      (d.property? property).map fun p => p.type.substitute d.typeParams owner.args := by
  unfold propertyType?
  cases c.descriptor? owner with
  | none => rfl
  | some e =>
    show (e.property? property).bind _ = (e.property? property).map _
    cases e.property? property <;> rfl

theorem Agree.propertyType? (h : c.Agree d i j) (owner : TypeRef) (property : String) :
    d.propertyType? owner property = c.propertyType? owner property := by
  rw [propertyType?_eq, propertyType?_eq, h.outline]

end Compilation

/-! ### Inference -/

namespace TypeScope
variable {d : Compilation} {j : Nat}

/-- The same scope in another pass. -/
def moved (s : TypeScope) (d : Compilation) (j : Nat) : TypeScope :=
  { s with compilation := d, source := j }

theorem infer_moved {s : TypeScope} (h : s.compilation.Agree d s.source j) :
    (e : Source.Expr) → (s.moved d j).infer e = s.infer e
  | .literal .. => rfl
  | .ident .. => rfl
  | .field _ base name => by
    rw [infer, infer, infer_moved h base]
    exact congrArg (·.getD .any) (h.propertyType? _ _)
  | .method _ receiver name _ => by rw [infer, infer, infer_moved h receiver]
  | .call .. => rfl
  | .choice _ value _ otherwise => by rw [infer, infer, infer_moved h value, infer_moved h otherwise]
  | .binary _ lhs op rhs => by rw [infer, infer, infer_moved h lhs, infer_moved h rhs]
  | .unary _ .not _ => rfl
  | .unary _ .neg operand => by rw [infer, infer, infer_moved h operand]
  | .construct _ type _ => congrArg (·.value) (h.resolve s.generics type)
  | .paren _ inner => by rw [infer, infer, infer_moved h inner]

theorem ofBinding_moved {s : TypeScope} (h : s.compilation.Agree d s.source j)
    (b : Source.Binding) : (s.moved d j).ofBinding b = s.ofBinding b := by
  unfold ofBinding
  split
  · exact congrArg (·.value) (h.resolve s.generics _)
  · exact infer_moved h _
  · rfl

end TypeScope

/-! ### Analysis -/

/-- The same method, in a source of another number. -/
def Frame.moved (f : Frame) (j : Nat) : Frame := { f with site := { f.site with source := j } }

namespace Progress
variable {d : Compilation} {j : Nat}

def moved (p : Progress) (d : Compilation) (j : Nat) : Progress :=
  { p with types := p.types.moved d j }

/-- A step leaves the pass and the source as they are. -/
theorem step_types (f : Frame) (p : Progress) (item : Item) :
    (p.step f item).value.types.compilation = p.types.compilation ∧
      (p.step f item).value.types.source = p.types.source := by
  cases item with
  | bind span b =>
    rw [step]
    split
    · exact ⟨rfl, rfl⟩
    · show (p.addBinding f span b).types.compilation = _ ∧ (p.addBinding f span b).types.source = _
      unfold addBinding
      dsimp only
      split
      · split <;> exact ⟨rfl, rfl⟩
      · exact ⟨rfl, rfl⟩
  | other s =>
    rw [step]
    split <;> exact ⟨rfl, rfl⟩

theorem addBinding_moved {f : Frame} {p : Progress} (h : p.types.compilation.Agree d p.types.source j)
    (span : Span) (b : Source.Binding) :
    (p.moved d j).addBinding (f.moved j) span b = (p.addBinding f span b).moved d j := by
  have htype : (p.moved d j).types.ofBinding b = p.types.ofBinding b := TypeScope.ofBinding_moved h b
  have hparam : (f.moved j).sourceParam = f.sourceParam := rfl
  unfold addBinding
  dsimp only
  rw [htype, hparam]
  split
  · by_cases hread : ((Source.optionalReads b.value).map (·.text)).contains f.sourceParam = true
    · rw [if_pos hread, if_pos hread]
      rfl
    · rw [if_neg hread, if_neg hread]
      rfl
  · rfl

theorem step_moved {f : Frame} {p : Progress} (h : p.types.compilation.Agree d p.types.source j)
    (item : Item) : (p.moved d j).step (f.moved j) item =
      ((·.moved d j) <$> p.step f item).mapNotes (·.moved j) := by
  cases item with
  | bind span b =>
    have hfault : bindingFault? (f.moved j) (p.moved d j) b = bindingFault? f p b := rfl
    rw [step, step, hfault]
    cases bindingFault? f p b with
    | some fault => rfl
    | none => exact congrArg pure (addBinding_moved h span b)
  | other s =>
    have hfault : statementFault? (f.moved j) (p.moved d j) s = statementFault? f p s := rfl
    rw [step, step, hfault]
    cases statementFault? f p s <;> rfl

theorem run_moved {f : Frame} {p : Progress} (h : p.types.compilation.Agree d p.types.source j)
    (items : List Item) : items.foldlM (step (f.moved j)) (p.moved d j) =
      ((·.moved d j) <$> items.foldlM (step f) p).mapNotes (·.moved j) := by
  induction items generalizing p with
  | nil => rfl
  | cons item rest ih =>
    obtain ⟨hc, hs⟩ := step_types f p item
    have hnext := ih (p := (p.step f item).value) (by rw [hc, hs]; exact h)
    simp only [List.foldlM_cons, step_moved h, Noted.ext_iff, Noted.bind_value, Noted.bind_notes,
      Noted.map_value, Noted.map_notes, Noted.mapNotes_value, Noted.mapNotes_notes,
      List.map_append] at hnext ⊢
    exact ⟨hnext.1, by rw [hnext.2]⟩

end Progress

theorem repeatedFaults_moved (f : Frame) (p : Progress) (d : Compilation) (j : Nat)
    (kept : List Initializer) : repeatedFaults (f.moved j) (p.moved d j) kept =
      (repeatedFaults f p kept).map (·.moved j) := by
  unfold repeatedFaults
  rw [List.map_map]
  rfl

namespace Factory

/-- Of the two types, the analysis sees what other types see. -/
theorem ofMethod_outline (c : Compilation) (source target : Descriptor) (declared : DeclaredAt)
    (m : Method) : ofMethod c source.outline target.outline declared m =
      ofMethod c source target declared m := rfl

theorem finalConstruction_moved {c d : Compilation} {i j : Nat} (h : c.Agree d i j)
    (target : Descriptor) (type method : String) (m : Method) :
    finalConstruction d target ⟨type, method, j⟩ m =
      (finalConstruction c target ⟨type, method, i⟩ m).mapError (List.map (·.moved j)) := by
  have hbuilt (t : Source.TypeExpr) : (d.resolve j target.typeParams t).value =
      (c.resolve i target.typeParams t).value := congrArg (·.value) (h.resolve target.typeParams t)
  unfold finalConstruction
  dsimp only
  split
  · rfl
  · rw [hbuilt]
    split <;> rfl

/-- What the analysis makes of a method once its steps are taken. -/
def conclude (target : Descriptor) (m : Method) (f : Frame) (args : List Source.Argument)
    (done : Noted Diagnostic Progress) : Except (List Diagnostic) Factory :=
  match done.notes ++ repeatedFaults f done.value (keptInitializers target args) with
  | [] => .ok ⟨m, f.sourceParam, m.parameters.tail, done.value.vars, keptInitializers target args,
      done.value.residuals, done.value.residualLocals⟩
  | faults => .error faults

/-- The steps of a method, in the pass. -/
def analyze (c : Compilation) (target : Descriptor) (declared : DeclaredAt) (m : Method)
    (param : Parameter) (before : List Source.Statement) (args : List Source.Argument) :
    Except (List Diagnostic) Factory :=
  let items := before.flatMap Item.ofStatement
  let frame : Frame :=
    ⟨⟨target.key.name, m.name, declared.source⟩, param.name, items.filterMap (·.declares?)⟩
  let types := (m.parameters.map fun p => (p.name, p.type)).reverse
  conclude target m frame args (items.foldlM (Progress.step frame)
    ⟨⟨c, declared.source, target.typeParams, types⟩, m.parameters.map (·.name), [], [], [], []⟩)

theorem ofMethod_eq (c : Compilation) (source target : Descriptor) (declared : DeclaredAt)
    (m : Method) : ofMethod c source target declared m = (do
      let site : Site := ⟨target.key.name, m.name, declared.source⟩
      let param ← sourceParameter source site m
      let (before, args) ← finalConstruction c target site m
      analyze c target declared m param before args) := rfl

theorem conclude_moved (target : Descriptor) (m : Method) (f : Frame)
    (args : List Source.Argument) (done : Noted Diagnostic Progress) (d : Compilation) (j : Nat) :
    conclude target m (f.moved j) args (((·.moved d j) <$> done).mapNotes (·.moved j)) =
      (conclude target m f args done).mapError (List.map (·.moved j)) := by
  unfold conclude
  rw [Noted.mapNotes_notes, Noted.map_notes, Noted.mapNotes_value, Noted.map_value,
    repeatedFaults_moved, ← List.map_append]
  cases done.notes ++ repeatedFaults f done.value (keptInitializers target args) <;> rfl

theorem analyze_moved {c d : Compilation} {a b : DeclaredAt} (h : c.Agree d a.source b.source)
    (target : Descriptor) (m : Method) (param : Parameter) (before : List Source.Statement)
    (args : List Source.Argument) : analyze d target b m param before args =
      (analyze c target a m param before args).mapError (List.map (·.moved b.source)) := by
  unfold analyze
  dsimp only
  rw [← conclude_moved target m _ args _ d, ← Progress.run_moved h]
  rfl

/-- A method is accepted in both passes, as the same factory, or in neither. -/
theorem ofMethod_moved {c d : Compilation} {a b : DeclaredAt} (h : c.Agree d a.source b.source)
    (source target : Descriptor) (m : Method) : ofMethod d source target b m =
      (ofMethod c source target a m).mapError (List.map (·.moved b.source)) := by
  have hparam : sourceParameter source ⟨target.key.name, m.name, b.source⟩ m =
      (sourceParameter source ⟨target.key.name, m.name, a.source⟩ m).mapError
        (List.map (·.moved b.source)) := by
    unfold sourceParameter
    dsimp only
    split
    · rfl
    · split <;> rfl
  rw [ofMethod_eq, ofMethod_eq]
  dsimp only
  rw [hparam, finalConstruction_moved h]
  cases sourceParameter source ⟨target.key.name, m.name, a.source⟩ m with
  | error faults => rfl
  | ok param =>
    cases finalConstruction c target ⟨target.key.name, m.name, a.source⟩ m with
    | error faults => rfl
    | ok final => exact analyze_moved h target m param final.1 final.2

end Factory

/-! ### Lowering -/

namespace Lowering
variable {d : Compilation} {j : Nat}

def moved (l : Lowering) (d : Compilation) (j : Nat) : Lowering :=
  { l with compilation := d, site := { l.site with source := j } }

variable {l : Lowering}

theorem typeOf_moved (h : l.compilation.Agree d l.site.source j)
    (t : Source.TypeExpr) : (l.moved d j).typeOf t = l.typeOf t :=
  congrArg (·.value) (h.resolve l.generics t)

mutual

theorem expr_moved (h : l.compilation.Agree d l.site.source j)
    (bound : List String) : (e : Source.Expr) →
    (l.moved d j).expr bound e = (l.expr bound e).mapNotes (·.moved j)
  | .literal .. => rfl
  | .ident span name => by
    rw [expr, expr]
    split <;> rfl
  | .field _ base name => by
    rw [expr, expr, expr_moved h bound base]
    simp
  | .method span receiver name args => by
    rw [expr, expr]
    split
    · rfl
    · split
      · rfl
      · rw [expr_moved h bound receiver, exprs_moved h bound args]
        simp
  | .call .. => rfl
  | .choice _ value condition otherwise => by
    rw [expr, expr, expr_moved h bound condition, expr_moved h bound value, expr_moved h bound otherwise]
    simp
  | .binary _ lhs op rhs => by
    rw [expr, expr, expr_moved h bound lhs, expr_moved h bound rhs]
    simp
  | .unary _ op operand => by
    rw [expr, expr, expr_moved h bound operand]
    simp
  | .construct span type args => by
    rw [expr, expr]
    split
    · rw [typeOf_moved h, arguments_moved h bound args]
      simp
    · rfl
  | .paren _ inner => by rw [expr, expr, expr_moved h bound inner]

theorem exprs_moved (h : l.compilation.Agree d l.site.source j)
    (bound : List String) : (es : List Source.Expr) →
    (l.moved d j).exprs bound es = (l.exprs bound es).mapNotes (·.moved j)
  | [] => rfl
  | e :: rest => by
    rw [exprs, exprs, expr_moved h bound e, exprs_moved h bound rest]
    simp

theorem arguments_moved (h : l.compilation.Agree d l.site.source j)
    (bound : List String) : (args : List Source.Argument) →
    (l.moved d j).arguments bound args = (l.arguments bound args).mapNotes (·.moved j)
  | [] => rfl
  | .positional _ :: rest => by rw [arguments, arguments, arguments_moved h bound rest]
  | .named name value :: rest => by
    rw [arguments, arguments, expr_moved h bound value, arguments_moved h bound rest]
    simp

end

theorem optional_moved (h : l.compilation.Agree d l.site.source j)
    (bound : List String) (e : Option Source.Expr) :
    (l.moved d j).optional bound e = (l.optional bound e).mapNotes (·.moved j) := by
  cases e with
  | none => rfl
  | some e =>
    rw [optional, optional, expr_moved h bound e]
    simp

theorem bindings_moved (h : l.compilation.Agree d l.site.source j)
    (bound : List String) (bs : List Source.Binding) :
    (l.moved d j).bindings bound bs = (l.bindings bound bs).mapNotes (·.moved j) := by
  induction bs generalizing bound with
  | nil => rfl
  | cons b rest ih =>
    have htype : (fun t => ((l.moved d j).typeOf t).text) = fun t => (l.typeOf t).text :=
      funext fun t => by rw [typeOf_moved h]
    rw [bindings, bindings, optional_moved h, ih, htype]
    simp

theorem assignment_moved (h : l.compilation.Agree d l.site.source j)
    (bound : List String) (target : Source.Ident) (value : Source.Expr) :
    (l.moved d j).assignment bound target value =
      (l.assignment bound target value).mapNotes (·.moved j) := by
  rw [assignment, assignment]
  split
  · rw [expr_moved h]
    simp
  · rfl

mutual

theorem statement_moved (h : l.compilation.Agree d l.site.source j)
    (bound : List String) : (s : Source.Statement) →
    (l.moved d j).statement bound s = (l.statement bound s).mapNotes (·.moved j)
  | .letIn _ bs => by rw [statement, statement, bindings_moved h]
  | .assign _ target value => by
    rw [statement, statement, assignment_moved h]
    simp
  | .expr _ value => by
    rw [statement, statement, expr_moved h]
    simp
  | .branch _ condition body others last => by
    rw [statement, statement, expr_moved h, block_moved h bound body, otherwise_moved h bound last]
    simp only [branches_moved h bound _ others]
    simp
  | .loop .. => rfl
  | .ret .. => rfl
  | .pass _ => rfl

theorem block_moved (h : l.compilation.Agree d l.site.source j)
    (bound : List String) : (body : List Source.Statement) →
    (l.moved d j).block bound body = (l.block bound body).mapNotes (·.moved j)
  | [] => rfl
  | s :: rest => by
    rw [block, block, statement_moved h bound s]
    simp only [block_moved h _ rest]
    simp

theorem branches_moved (h : l.compilation.Agree d l.site.source j)
    (bound : List String) (last : List Residual) :
    (others : List (Source.Expr × List Source.Statement)) →
    (l.moved d j).branches bound last others = (l.branches bound last others).mapNotes (·.moved j)
  | [] => rfl
  | (condition, body) :: rest => by
    rw [branches, branches, branches_moved h bound last rest, expr_moved h, block_moved h bound body]
    simp

theorem otherwise_moved (h : l.compilation.Agree d l.site.source j)
    (bound : List String) : (last : Option (List Source.Statement)) →
    (l.moved d j).otherwise bound last = (l.otherwise bound last).mapNotes (·.moved j)
  | none => rfl
  | some body => by rw [otherwise, otherwise, block_moved h bound body]

end

end Lowering

/-! ### Mappings and plans -/

namespace Mapping
variable {c d : Compilation} {a b : DeclaredAt}

/-- The same mapping, with its target declared elsewhere. -/
def moved (m : Mapping) (b : DeclaredAt) : Mapping := { m with declared := b }

theorem build_moved (h : c.Agree d a.source b.source) (source target : Descriptor) :
    build d source target b =
      ((·.moved b) <$> build c source target a).mapNotes (·.moved b.source) := by
  have hresults (methods : List Method) : methods.map (Factory.ofMethod d source target b) =
      (methods.map (Factory.ofMethod c source target a)).map
        (Except.mapError (List.map (·.moved b.source))) := by
    rw [List.map_map]
    exact congrArg (methods.map ·) (funext (Factory.ofMethod_moved h source target))
  have hkept : (fun r : Except (List Diagnostic) Factory =>
      (r.mapError (List.map (·.moved b.source))).toOption) = (·.toOption) :=
    funext fun r => by cases r <;> rfl
  unfold build
  dsimp only
  rw [hresults]
  generalize List.map (Factory.ofMethod c source target a) _ = results
  rw [Noted.ext_iff]
  constructor
  · simp only [List.filterMap_map, Function.comp_def, hkept]
    rfl
  · simp only [List.flatMap_map, Noted.mapNotes_notes, Noted.map_notes, List.map_flatMap]
    congr 1
    funext r
    cases r <;> rfl

variable {m : Mapping}

theorem lowering_moved (f : Factory) :
    (m.moved b).lowering d f = (m.lowering c f).moved d b.source := rfl

variable (h : c.Agree d m.declared.source b.source)
include h

theorem targetProperties_moved : (m.moved b).targetProperties d = m.targetProperties c := by
  have hout := h.outline m.target
  unfold targetProperties
  cases hd : d.descriptor? (m.moved b).target <;> cases hc : c.descriptor? m.target <;>
    rw [hc, show d.descriptor? m.target = _ from hd] at hout
  · rfl
  · cases hout
  · cases hout
  · exact congrArg (fun e : Descriptor => e.properties.map (·.name)) (Option.some.inj hout)

theorem construction_moved (explicit : List (String × Tree)) (fallback : String → Tree) :
    (m.moved b).construction d explicit fallback = m.construction c explicit fallback := by
  unfold construction
  rw [targetProperties_moved h]
  rfl

theorem initializerTrees_moved (f : Factory) (visible : List String) (inits : List Initializer) :
    initializerTrees ((m.moved b).lowering d f) visible inits =
      (initializerTrees (m.lowering c f) visible inits).mapNotes (·.moved b.source) := by
  have hexpr := Lowering.expr_moved (l := m.lowering c f) h visible
  show initializerTrees ((m.lowering c f).moved d b.source) visible inits = _
  unfold initializerTrees
  simp [hexpr]

theorem degenerateStage_moved (f : Factory) : (m.moved b).degenerateStage d f =
    (m.degenerateStage c f).mapNotes (·.moved b.source) := by
  unfold degenerateStage
  rw [initializerTrees_moved h]
  simp [construction_moved h]

theorem parameterPlans_moved (f : Factory) (before : List String) (ps : List Parameter) :
    parameterPlans ((m.moved b).lowering d f) before ps =
      (parameterPlans (m.lowering c f) before ps).mapNotes (·.moved b.source) := by
  induction ps generalizing before with
  | nil => rfl
  | cons p rest ih =>
    have hdefault : ((m.moved b).lowering d f).optional before (p.default.bind (·.expr)) = _ :=
      Lowering.optional_moved (l := m.lowering c f) h before _
    rw [parameterPlans, parameterPlans, hdefault, ih]
    simp

theorem lower_moved (f : Factory) :
    (m.moved b).lower d f = (m.lower c f).mapNotes (·.moved b.source) := by
  have hexpr := Lowering.expr_moved (l := m.lowering c f) h
  have hblock := Lowering.block_moved (l := m.lowering c f) h
  unfold lower
  simp only [parameterPlans_moved h, initializerTrees_moved h]
  rw [lowering_moved (c := c)]
  simp [hexpr, hblock]

theorem assemble_moved (f : Factory) (t : Lowered) :
    (m.moved b).assemble d f t = m.assemble c f t := by
  unfold assemble
  simp only [construction_moved h]
  rfl

theorem planStep_moved (merged : Option Lambda) (f : Factory) : (m.moved b).planStep d merged f =
    (m.planStep c merged f).mapNotes (·.moved b.source) := by
  have hassemble : (m.moved b).assemble d f = m.assemble c f := funext (assemble_moved h f)
  unfold planStep
  rw [degenerateStage_moved h, lower_moved h, hassemble, Noted.unnoted_mapNotes,
    Noted.unnoted_mapNotes]
  split
  · cases merged <;> simp
  · simp

theorem planFactories_moved (merged : Option Lambda) (fs : List Factory) :
    (m.moved b).planFactories d merged fs =
      (m.planFactories c merged fs).mapNotes (·.moved b.source) := by
  induction fs generalizing merged with
  | nil => rfl
  | cons f rest ih =>
    rw [planFactories_cons, planFactories_cons, planStep_moved h]
    simp [ih]

theorem plan_moved : (m.moved b).plan d = (m.plan c).mapNotes (·.moved b.source) := by
  unfold plan
  show (do
    let step ← (m.moved b).planFactories d none m.factories
    _) = _
  rw [planFactories_moved h]
  simp
  rfl

end Mapping

namespace Compilation
variable {c d : Compilation} {a b : DeclaredAt}

/-- Passes that agree map the same types in the same way. -/
theorem unit_moved (h : c.Agree d a.source b.source) (source target : Descriptor) :
    d.unit source target b = ((fun u => ⟨u.mapping.moved b, u.plan⟩) <$>
      c.unit source target a).mapNotes (·.moved b.source) := by
  have hplan : ((Mapping.build c source target a).value.moved b).plan d =
      ((Mapping.build c source target a).value.plan c).mapNotes (·.moved b.source) :=
    Mapping.plan_moved h
  rw [unit, unit, Mapping.build_moved h]
  simp [Noted.ext_iff, hplan]

/-- Where the two types are declared is no matter. -/
theorem unit_declared (c : Compilation) (source target : Descriptor) (declared : DeclaredAt)
    (x y : Option DeclaredAt) : c.unit { source with declared := x }
      { target with declared := y } declared = c.unit source target declared := rfl

end Compilation
end StagedMapping
