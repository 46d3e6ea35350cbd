import StagedMapping.Proofs.LoweredRuns
import StagedMapping.Proofs.OutOfOrder
import StagedMapping.Proofs.PlanContents
import StagedMapping.Proofs.Reordering

/-! The written order of a method against its plan. A method means what its body does as it is
written (`Method.runWritten`): the arguments are bound, the statements run one after the other
in one scope with the source, and the target is built in the scope that is left. The plan
gives the same record for the same arguments and source, as long as the body is settled
(`Method.Settled`, `Factory.staged_iff_written`). The analysis accepts bodies that are not,
and for each of the conditions there is one whose plan does something else
(`Factory.staged_ne_written`). -/
namespace StagedMapping

/-! ### Methods as they are written -/

/-- What a written type refers to in the bodies of a mapping. -/
def Mapping.types (m : Mapping) (c : Compilation) (t : Source.TypeExpr) : TypeRef :=
  (c.resolve m.declared.source (m.target.args.map (·.name)) t).value

namespace Method

/-- The value of a parameter: what is passed, else its default. -/
def argumentWritten (types : Source.TypeExpr → TypeRef) (declaration : String) (scope : Scope)
    (p : Parameter) (passed : Option Value) : Except MapError Value :=
  match passed, p.default.bind (·.expr) with
  | some v, _ => .ok v
  | none, some e => (e.eval types scope).lift
  | none, none => .error (.missingArgument p.name declaration)

/-- Binds parameters in order, each in the scope of those before it. -/
def bindWritten (types : Source.TypeExpr → TypeRef) (declaration : String) (scope : Scope) :
    List Parameter → Args → Except MapError Scope
  | [], _ => .ok scope
  | p :: rest, args => do
    let v ← argumentWritten types declaration scope p args.head?.join
    bindWritten types declaration (Bindings.set scope p.name (v.coerce p.type.text)) rest args.tail

variable (method : Method) (m : Mapping) (c : Compilation) (target : Descriptor)

/-- The initializers of the final construction. -/
def kept : List Initializer := keptInitializers target method.finalArguments

/-- The run of a method as it is written: what the initializers leave out of the target is
filled in from the source. -/
def runWritten (args : Args) (s : Value) : Except MapError Value := do
  if method.parameters.tail.length < args.length then
    throw (.tooManyArguments method.declaration method.parameters.tail.length args.length)
  let scope ← bindWritten (m.types c) method.declaration [] method.parameters.tail args
  let last ← (Source.blockExec (m.types c) (Bindings.set scope method.sourceName s)
    method.statements).lift
  (m.targetRecord c (fun name => ((method.kept target).find? (·.target.name == name)).map
    fun i => i.value.eval (m.types c) last) s.member).lift

/-- The last step that declares a name, at whatever depth. -/
def lastDeclaring (steps : List Item) (n : String) : Option Item :=
  steps.reverse.find? fun i => i.declared.contains n

/-- What keeps the written order of a method and its plan together. -/
structure Settled : Prop where
  /-- No branch after a variable declares a name that the variable reads. -/
  unshadowed : method.steps.Pairwise fun i j => i.isVariable method.sourceName = true →
    ∀ r ∈ i.reads, r.text ≠ method.sourceName → r.text ∉ j.inner
  /-- No step before a variable declares the name of the source. -/
  source : method.steps.Pairwise fun i j => j.isVariable method.sourceName = true →
    method.sourceName ∉ i.declared
  /-- If the construction reads the source or a variable by its name, then a variable whose
  value is not made a float declares the name last, if any step does. -/
  final : ∀ r ∈ (method.kept target).flatMap (·.value.reads),
    r.text ∈ method.sourceName :: Reordering.variableNames method.sourceName method.steps →
      ∀ i ∈ lastDeclaring method.steps r.text,
        i.isVariable method.sourceName = true ∧ Reordering.makesFloat (m.types c) i = false
  /-- If a variable takes the name of the source, then the construction leaves nothing to be
  filled in. -/
  filled : method.sourceName ∈ Reordering.variableNames method.sourceName method.steps →
    ∀ name ∈ m.targetProperties c, (m.properties.find? (·.target.name == name)).isSome →
      ((method.kept target).find? (·.target.name == name)).isSome

end Method

/-! ### Accepted and settled bodies are ordered -/

open Reordering

theorem Reordering.mem_variableNames {src n : String} {items : List Item}
    (h : n ∈ variableNames src items) : ∃ i ∈ items, i.declares? = some n := by
  obtain ⟨v, hv, rfl⟩ := List.mem_map.1 h
  obtain ⟨i, hi, hiv⟩ := List.mem_filterMap.1 hv
  refine ⟨i, hi, ?_⟩
  cases i with
  | other s => cases hiv
  | bind span b =>
    rw [Item.asVariable?] at hiv
    split at hiv
    · obtain ⟨e, -, rfl⟩ := Option.map_eq_some_iff.1 hiv
      rfl
    · cases hiv

/-- After steps that are taken up, the tainted names are those of their variables. -/
theorem Progress.Adds.tainted {f : Frame} {p q : Progress} {items : List Item}
    (h : Adds f p items q) (hp : p.vars = []) {n : String} (hn : q.isTainted n = false) :
    n ∉ variableNames f.sourceParam items := by
  intro hmem
  have hvars := h.vars
  rw [hp, List.map_nil, List.nil_append] at hvars
  obtain ⟨v, hv, rfl⟩ := List.mem_map.1 hmem
  rw [sourceVariables, ← hvars] at hv
  obtain ⟨x, hx, rfl⟩ := List.mem_map.1 hv
  have htainted : q.isTainted x.name = true :=
    List.any_eq_true.2 ⟨x, hx, beq_self_eq_true x.name⟩
  exact Bool.false_ne_true (hn.symm.trans htainted)

namespace Method
variable {method : Method} {m : Mapping} {c : Compilation} {target : Descriptor}
  {declared : DeclaredAt}

theorem lastDeclaring_eq {pre post : List Item} {i : Item} {n : String} (hi : n ∈ i.declared)
    (hpost : ∀ j ∈ post, n ∉ j.declared) : lastDeclaring (pre ++ i :: post) n = some i := by
  have hnone : post.reverse.find? (fun j => j.declared.contains n) = none := by
    refine List.find?_eq_none.2 fun j hj => ?_
    simpa using hpost j (List.mem_reverse.1 hj)
  rw [lastDeclaring, List.reverse_append, List.reverse_cons, List.append_assoc, List.find?_append,
    hnone, Option.none_or, List.singleton_append, List.find?_cons_of_pos (by simpa using hi)]

theorem Settled.ordered (hs : method.Settled m c target)
    (hclear : (Progress.run (method.frame target declared) (method.start c target declared)
      method.steps).notes = []) :
    Ordered (m.types c) method.sourceName
      (((method.kept target).flatMap (·.value.reads)).map (·.text)) method.steps := by
  have hsplit {pre post : List Item} {i : Item} (he : method.steps = pre ++ i :: post) :=
    Progress.clear_of_run (he ▸ hclear)
  have hresidual : ∀ pre i post, method.steps = pre ++ i :: post →
      i.isVariable method.sourceName = false →
      ∀ r ∈ i.reads, r.text ∉ method.sourceName :: variableNames method.sourceName pre := by
    intro pre i post he hi r hr
    obtain ⟨hadds, hi'⟩ := hsplit he
    rw [List.mem_cons, not_or]
    exact ⟨hi'.sourceFree hi r hr, hadds.tainted rfl (hi'.untainted r hr)⟩
  constructor
  case residual =>
    exact hresidual
  case untainted =>
    intro pre i post he hi r hr
    obtain ⟨hadds, hi'⟩ := hsplit he
    exact hadds.tainted rfl (hi'.untainted r hr)
  case unchanged =>
    intro pre i mid j post he hi r hr hne hc
    rcases Progress.changed_of_run (he ▸ hclear) hi hr hc with hinner | ⟨hs, -⟩
    · have hpairs := hs.unshadowed
      rw [he] at hpairs
      exact rel_of_pairwise hpairs hi r hr hne hinner
    · exact hne hs
  case source =>
    intro pre i mid j post he hj hc
    rcases List.mem_append.1 hc with hd | ha
    · have hpairs := hs.source
      rw [he] at hpairs
      exact rel_of_pairwise hpairs hj hd
    · obtain ⟨a, ha, hsrc⟩ := List.mem_map.1 ha
      exact (hsplit he).2.source_unassigned a ha hsrc
  case final =>
    intro pre i post he n hn hall hc hpost
    obtain ⟨r, hr, rfl⟩ := List.mem_map.1 hn
    have hlast : ∀ j ∈ post, r.text ∉ j.declared :=
      fun j hj hd => hpost j hj (List.mem_append_left _ hd)
    rcases List.mem_append.1 hc with hd | ha
    · exact hs.final r hr hall i (he ▸ lastDeclaring_eq hd hlast)
    · -- what a step assigns it reads, so it is no name of a variable yet, nor one later
      obtain ⟨a, ha, hat⟩ := List.mem_map.1 ha
      have hi : i.isVariable method.sourceName = false := by
        cases i with
        | bind span b => cases ha
        | other s => rfl
      have hnot := hresidual pre i post he hi a (i.assigned_reads a ha)
      rw [hat] at hnot
      rw [he, List.append_cons, variableNames_append, variableNames_append,
        variableNames_residual hi, List.append_nil, ← List.cons_append, List.mem_append] at hall
      obtain ⟨j, hj, hjd⟩ := mem_variableNames (hall.resolve_left hnot)
      exact absurd (List.mem_append_left _ (Option.mem_toList.2 hjd)) (hlast j hj)

end Method

/-! ### Plans as they are written -/

namespace Mapping
variable {m : Mapping} {c : Compilation} {f : Factory}

/-- A factory that was lowered without a note has no part with one. -/
theorem notes_of_lower (h : (m.lower c f).notes = []) :
    (parameterPlans (m.lowering c f) [] f.parameters).notes = [] ∧
      ((m.lowering c f).block (f.parameters.map (·.name)) f.residuals).notes = [] ∧
      (∀ v ∈ f.vars, ((m.lowering c f).expr (visible f) v.value).notes = []) ∧
      ∀ i ∈ f.initializers,
        ((m.lowering c f).expr (visible f ++ f.vars.map (·.name)) i.value).notes = [] := by
  simp only [lower, initializerTrees, Noted.bind_notes, Noted.pure_notes, Noted.mapM_notes,
    List.append_nil, List.append_eq_nil_iff, List.flatMap_eq_nil_iff] at h
  exact h

theorem bindParameters_eq_written (plan : FactoryPlan) (l : Lowering) (ps : List Parameter)
    (before : List String) (scope : Scope) (args : Args)
    (h : (parameterPlans l before ps).notes = []) :
    plan.bindParameters scope (parameterPlans l before ps).value args =
      Method.bindWritten l.typeOf plan.declaration scope ps args := by
  induction ps generalizing before scope args with
  | nil => rfl
  | cons p rest ih =>
    simp only [parameterPlans, Noted.bind_notes, Noted.pure_notes, List.append_nil,
      List.append_eq_nil_iff] at h
    have hargument : plan.argument scope
        ⟨p.name, p.type.text, (l.optional before (p.default.bind (·.expr))).value⟩ args.head?.join =
          Method.argumentWritten l.typeOf plan.declaration scope p args.head?.join := by
      unfold Method.argumentWritten
      cases args.head?.join with
      | some v => rfl
      | none =>
        cases hd : p.default.bind (·.expr) with
        | none => rfl
        | some e =>
          rw [hd] at h
          have he := l.expr_eval before scope e (by simpa [Lowering.optional] using h.1)
          show (Tree.eval scope (l.expr before e).value).lift = _
          rw [he]
    rw [parameterPlans_cons, FactoryPlan.bindParameters, hargument, Method.bindWritten]
    exact congrArg _ (funext fun v => ih _ _ _ h.2)

/-- What is built at the end, in an environment. -/
def builtWritten (m : Mapping) (c : Compilation) (f : Factory) (last : Scope) : Eval Value :=
  m.targetRecord c
    (fun name => (f.initializers.find? (·.target.name == name)).map
      fun i => i.value.eval (m.types c) last)
    fun p => do (← (Tree.param f.sourceParam).eval last).member p

theorem unstaged_eq_written (h : (m.lower c f).notes = []) (scope : Scope) (s : Value) :
    m.unstaged c f scope s =
      evaluate (m.types c) (Bindings.set scope f.sourceParam s)
        (f.vars.map fun v => (v.name, v.value)) >>= fun values =>
          m.builtWritten c f (Bindings.setAll (Bindings.set scope f.sourceParam s) values) := by
  obtain ⟨-, -, hvars, hinits⟩ := notes_of_lower h
  have hvalues : ((m.lower c f).value.vars.mapM fun v => do
      return (v.1, ← v.2.eval (Bindings.set scope f.sourceParam s))) =
        evaluate (m.types c) (Bindings.set scope f.sourceParam s)
          (f.vars.map fun v => (v.name, v.value)) := by
    rw [lower_vars]
    generalize f.vars = vars at hvars
    induction vars with
    | nil => rfl
    | cons v rest ih =>
      have hv := (m.lowering c f).expr_eval (visible f) (Bindings.set scope f.sourceParam s) v.value
        (hvars v List.mem_cons_self)
      rw [List.map_cons, List.map_cons, evaluate, List.mapM_cons, List.mapM_cons, hv,
        ih fun x hx => hvars x (List.mem_cons_of_mem _ hx)]
      rfl
  have hgiven (last : Scope) (name : String) :
      (Bindings.get? (m.lower c f).value.properties name).map (·.eval last) =
        (f.initializers.find? (·.target.name == name)).map
          fun i => i.value.eval (m.types c) last := by
    rw [lower_properties, Bindings.get?, List.find?_map, Option.map_map, Option.map_map]
    show (f.initializers.find? (·.target.name == name)).map _ = _
    cases hi : f.initializers.find? (·.target.name == name) with
    | none => rfl
    | some i =>
      have hnotes := hinits i (List.mem_of_find?_eq_some hi)
      exact congrArg some ((m.lowering c f).expr_eval _ last i.value hnotes)
  rw [unstaged, hvalues]
  refine congrArg _ (funext fun values => ?_)
  rw [builtWritten]
  exact congrArg (m.targetRecord c · _) (funext (hgiven _))

theorem boundScope_eq_written (h : (m.lower c f).notes = []) (args : Args) :
    (m.factoryPlan c f).boundScope args = (do
      if f.parameters.length < args.length then
        throw (.tooManyArguments f.declaration f.parameters.length args.length)
      let scope ← Method.bindWritten (m.types c) f.declaration [] f.parameters args
      (Source.blockExec (m.types c) scope f.residuals).lift) := by
  obtain ⟨hparameters, hresiduals, -, -⟩ := notes_of_lower h
  have hlength : (m.factoryPlan c f).parameters.length = f.parameters.length := by
    have hnames := congrArg List.length (parameterPlans_names (m.lowering c f) [] f.parameters)
    rw [List.length_map, List.length_map] at hnames
    exact hnames
  have hbind := bindParameters_eq_written (m.factoryPlan c f) (m.lowering c f) f.parameters [] []
    args hparameters
  rw [FactoryPlan.boundScope, hlength]
  split
  · rfl
  · show (m.factoryPlan c f).bindParameters [] (parameterPlans _ _ _).value args >>= _ = _
    rw [hbind]
    refine congrArg _ (funext fun scope => ?_)
    exact congrArg Eval.lift ((m.lowering c f).block_exec _ scope f.residuals hresiduals)

/-- The run of a plan: the binding of the arguments, then the stages. -/
theorem bind_apply (h : f.Scoped) (args : Args) (s : Value) :
    ((m.factoryPlan c f).bind args >>= fun stages => (applyStages stages s).lift) =
      (m.factoryPlan c f).boundScope args >>= fun scope => (m.unstaged c f scope s).lift := by
  rw [FactoryPlan.bind]
  cases hscope : (m.factoryPlan c f).boundScope args with
  | error e => rfl
  | ok scope =>
    have hbound := (m.boundScope_binds c h args).after scope hscope
    exact congrArg Eval.lift (m.applyStages_eq_unstaged c f hbound s)

theorem targetFields_congr {given given' : String → Option (Eval Value)}
    {filled filled' : String → Eval Value} {names : List String}
    (hg : ∀ name ∈ names, given name = given' name)
    (hf : filled = filled' ∨ ∀ name ∈ names,
      (m.properties.find? (·.target.name == name)).isSome → (given name).isSome)
    (fields : List (String × Value)) :
    m.targetFields given filled fields names = m.targetFields given' filled' fields names := by
  induction names generalizing fields with
  | nil => rfl
  | cons name rest ih =>
    have hrest := ih (fun n hn => hg n (List.mem_cons_of_mem _ hn))
      (hf.imp_right fun h n hn => h n (List.mem_cons_of_mem _ hn))
    rw [targetFields, targetFields, ← hg name List.mem_cons_self]
    cases hv : given name with
    | some v => simp only [hrest]
    | none =>
      cases hp : m.properties.find? (·.target.name == name) with
      | none => simp only [hrest]
      | some p =>
        rcases hf with rfl | hf
        · simp only [hrest]
        · have := hf name List.mem_cons_self
          rw [hv, hp] at this
          cases this rfl

end Mapping

namespace Reordering
variable {types : Source.TypeExpr → TypeRef} {src : String} {s : Value} {read : List String}
  {steps : List Item}

/-- The written order begins in the scope of the parameters with the source in it. -/
theorem Tracks.start (scope : Scope) :
    Tracks src s read [] steps (Bindings.set scope src s) scope [(src, s)] where
  names := by simp [Bindings.names, variableNames, sourceVariables]
  agree := by
    intro n hn
    refine Bindings.get?_set_other scope s fun he => hn ?_
    exact List.mem_singleton.2 he.symm
  source := fun _ => Bindings.get?_set_same scope src s
  final := by
    intro n _ hn
    cases List.mem_singleton.1 hn
    right
    rw [Bindings.get?_set_same, Bindings.get?_cons, if_pos (beq_self_eq_true _)]

/-- At the end, what is read has the value that the stages give it. -/
theorem Tracks.read_eq {written scope : Scope} {values : List (String × Value)}
    (h : Tracks src s read steps [] written scope (Bindings.setAll [(src, s)] values))
    (hv : Bindings.names values = variableNames src steps) :
    ∀ n ∈ read, Bindings.get? written n =
      Bindings.get? (Bindings.setAll (Bindings.set scope src s) values) n := by
  intro n hn
  have hsource : Bindings.Agree [src] [(src, s)] (Bindings.set scope src s) := by
    intro k hk
    cases List.mem_singleton.1 hk
    exact ⟨s, by simp, Bindings.get?_set_same scope src s⟩
  by_cases hk : n ∈ src :: variableNames src steps
  · obtain ⟨v, hknown, hlast⟩ := hsource.setAll values n (hv ▸ hk)
    rw [(h.final n hn ((h.names n).2 hk)).resolve_left (by simp), hknown, hlast]
  · have hne : src ≠ n := fun he => hk (he ▸ List.mem_cons_self)
    rw [h.agree n fun hm => hk ((h.names n).1 hm),
      Bindings.get?_setAll_other fun hm => hk (List.mem_cons_of_mem _ (hv ▸ hm)),
      Bindings.get?_set_other scope s hne]

end Reordering

/-! ### Both runs -/

namespace Factory
variable {c : Compilation} {source target : Descriptor} {declared : DeclaredAt} {method : Method}
  {f : Factory}

theorem Describes.variables_eq (h : f.Describes c target declared method) :
    f.vars.map (fun v => (v.name, v.value)) = sourceVariables method.sourceName method.steps := by
  rw [h.vars, (Progress.run_adds h.clear).vars]
  rfl

theorem Describes.residuals_eq (h : f.Describes c target declared method) :
    f.residuals = (residualItems method.sourceName method.steps).map (·.toStatement) := by
  rw [h.residuals, (Progress.run_adds h.clear).residuals]
  rfl

/-- What is built is the same in both orders. -/
theorem Describes.built_eq (h : f.Describes c target declared method) {m : Mapping}
    (hs : method.Settled m c target) {s : Value} {written scope : Scope}
    {values : List (String × Value)}
    (hv : Bindings.names values = variableNames method.sourceName method.steps)
    (ht : Tracks method.sourceName s (((method.kept target).flatMap (·.value.reads)).map (·.text))
      method.steps [] written scope (Bindings.setAll [(method.sourceName, s)] values)) :
    m.targetRecord c (fun name => ((method.kept target).find? (·.target.name == name)).map
        fun i => i.value.eval (m.types c) written) s.member =
      m.builtWritten c f (Bindings.setAll (Bindings.set scope method.sourceName s) values) := by
  have hread := ht.read_eq hv
  have hkept : f.initializers = method.kept target := h.initializers
  rw [Mapping.builtWritten, Mapping.targetRecord, Mapping.targetRecord, hkept, h.sourceParam]
  refine congrArg (· >>= _) (Mapping.targetFields_congr (fun name _ => ?_) ?_ [])
  · cases hi : (method.kept target).find? (·.target.name == name) with
    | none => rfl
    | some i =>
      refine congrArg some (i.value.eval_congr fun r hr => hread r.text (List.mem_map_of_mem ?_))
      exact List.mem_flatMap.2 ⟨i, List.mem_of_find?_eq_some hi, hr⟩
  · by_cases hsrc : method.sourceName ∈ variableNames method.sourceName method.steps
    · right
      intro name hname hp
      rw [Option.isSome_map]
      exact hs.filled hsrc name hname hp
    · left
      funext p
      rw [Tree.eval, Bindings.get?_setAll_other (hv ▸ hsrc), Bindings.get?_set_same]
      rfl

/-- From the scope of the parameters on, both runs give the same record, or none. -/
theorem Describes.run_iff (h : f.Describes c target declared method) {m : Mapping}
    (hs : method.Settled m c target) (hn : (m.lower c f).notes = []) (scope : Scope)
    (s r : Value) :
    ((Source.blockExec (m.types c) (Bindings.set scope method.sourceName s)
        method.statements).lift >>= fun last =>
      (m.targetRecord c (fun name => ((method.kept target).find? (·.target.name == name)).map
        fun i => i.value.eval (m.types c) last) s.member).lift) = .ok r ↔
    ((Source.blockExec (m.types c) scope f.residuals).lift >>= fun after =>
      (m.unstaged c f after s).lift) = .ok r := by
  have hpaired := reorder (hs.ordered h.clear) rfl
    (Tracks.start scope : Tracks method.sourceName s _ [] method.steps _ scope _)
  have hunstaged (after : Scope) := Mapping.unstaged_eq_written hn after s
  rw [h.variables_eq, h.sourceParam] at hunstaged
  rw [h.residuals_eq, blockExec_toStatement, blockExec_eq_runItems]
  change ((runItems (m.types c) _ method.steps).lift >>= _) = _ ↔ _
  simp only [hunstaged, bind_eq_ok, Eval.lift_eq_ok]
  constructor
  · rintro ⟨written, hw, hr⟩
    rw [hw] at hpaired
    obtain ⟨q, hq, ht⟩ := hpaired.ok_left
    obtain ⟨after, values, hafter, hvalues, rfl⟩ := (staged_eq_ok _).1 hq
    rw [h.built_eq hs (Bindings.names_of_mapM hvalues) ht] at hr
    exact ⟨after, hafter, values, hvalues, hr⟩
  · rintro ⟨after, hafter, values, hvalues, hr⟩
    have hq : staged _ _ s scope [(method.sourceName, s)] method.steps = .ok _ :=
      (staged_eq_ok _).2 ⟨after, values, hafter, hvalues, rfl⟩
    rw [hq] at hpaired
    obtain ⟨written, hw, ht⟩ := hpaired.ok_right
    rw [← h.built_eq hs (Bindings.names_of_mapM hvalues) ht] at hr
    exact ⟨written, hw, hr⟩

/-- A factory with a plan of its own does what its method does. -/
theorem Describes.planned_iff (h : f.Describes c target declared method) {m : Mapping}
    (hs : method.Settled m c target) (hn : (m.lower c f).notes = []) (args : Args) (s r : Value) :
    method.runWritten m c target args s = .ok r ↔
      ((m.factoryPlan c f).bind args >>= fun stages => (applyStages stages s).lift) = .ok r := by
  have hdeclaration : f.declaration = method.declaration := by rw [Factory.declaration, h.method]
  rw [Mapping.bind_apply h.scoped, Mapping.boundScope_eq_written hn, h.parameters, hdeclaration,
    Method.runWritten]
  split
  · exact Iff.rfl
  · change (Method.bindWritten _ _ _ _ _ >>= _) = _ ↔
      ((Method.bindWritten _ _ _ _ _ >>= _) >>= _) = _
    cases Method.bindWritten (m.types c) method.declaration [] method.parameters.tail args with
    | error e => exact Iff.rfl
    | ok scope => exact h.run_iff hs hn scope s r

theorem Describes.steps_of_degenerate (h : f.Describes c target declared method)
    (hf : f.isDegenerate = true) : f.parameters = [] ∧ method.steps = [] := by
  simp only [isDegenerate, Bool.and_eq_true, List.isEmpty_iff] at hf
  obtain ⟨⟨hparameters, hvars⟩, hresiduals⟩ := hf
  refine ⟨hparameters, List.eq_nil_iff_forall_not_mem.2 fun i hi => ?_⟩
  cases hv : i.isVariable method.sourceName with
  | true =>
    obtain ⟨span, b, e, -, -, hvar⟩ := eq_bind_of_isVariable hv
    have hmem := List.mem_filterMap.2 ⟨i, hi, hvar⟩
    rw [← sourceVariables, ← h.variables_eq, hvars] at hmem
    cases hmem
  | false =>
    have hmem :
        i.toStatement ∈ (residualItems method.sourceName method.steps).map (·.toStatement) :=
      List.mem_map_of_mem (List.mem_filter.2 ⟨hi, by rw [hv]; rfl⟩)
    rw [← h.residuals_eq, hresiduals] at hmem
    cases hmem

/-- The default projection that a factory makes, in the scope of the source. -/
theorem degenerateStage_apply {m : Mapping} (hn : (m.degenerateStage c f).notes = [])
    (s : Value) : (m.degenerateStage c f).value.apply s =
      m.targetRecord c (fun name => (f.initializers.find? (·.target.name == name)).map
        fun i => i.value.eval (m.types c) [(f.sourceParam, s)]) s.member := by
  have hnotes : ∀ i ∈ f.initializers,
      ((m.lowering c f).expr [f.sourceParam] i.value).notes = [] := by
    simpa [Mapping.degenerateStage, Mapping.initializerTrees, Noted.mapM_notes] using hn
  show (m.construction c _ _).eval [(Convention.sourceParameter, s)] = _
  rw [Mapping.construction_eval]
  congr 1
  funext name
  rw [Mapping.initializerTrees, Noted.mapM_value, List.map_map, Bindings.get?, List.find?_map,
    Option.map_map, Option.map_map]
  show (f.initializers.find? (·.target.name == name)).map _ = _
  cases hi : f.initializers.find? (·.target.name == name) with
  | none => rfl
  | some i =>
    have hlowered := (m.lowering c f).expr_eval [f.sourceParam] [(f.sourceParam, s)] i.value
      (hnotes i (List.mem_of_find?_eq_some hi))
    refine congrArg some (Eq.trans ?_ hlowered)
    refine Tree.eval_substitute _ fun n hn => ?_
    -- only the source is read, and it is renamed
    rw [List.mem_singleton.1 ((m.lowering c f).expr_reads _ i.value n hn), if_pos rfl,
      Option.getD_some, Tree.eval, Tree.eval, Bindings.get?_cons, Bindings.get?_cons,
      if_pos (beq_self_eq_true _), if_pos (beq_self_eq_true _)]

/-- A factory that became the default projection does what its method does. -/
theorem Describes.merged_iff (h : f.Describes c target declared method) {m : Mapping}
    (hf : f.isDegenerate = true) (hn : (m.degenerateStage c f).notes = []) (s r : Value) :
    method.runWritten m c target [] s = .ok r ↔
      ((m.degenerateStage c f).value.apply s).lift = .ok r := by
  obtain ⟨hparameters, hsteps⟩ := h.steps_of_degenerate hf
  have hkept : f.initializers = method.kept target := h.initializers
  have hblock : Source.blockExec (m.types c) [(method.sourceName, s)] method.statements =
      .ok [(method.sourceName, s)] := by
    rw [blockExec_eq_runItems]
    show runItems _ _ method.steps = _
    rw [hsteps]
    rfl
  rw [degenerateStage_apply hn, hkept, h.sourceParam, Method.runWritten, ← h.parameters,
    hparameters]
  change (Eval.lift (Source.blockExec _ [(method.sourceName, s)] method.statements) >>= _) = _ ↔ _
  rw [hblock]
  exact Iff.rfl

end Factory

/-! ### Bodies that are settled or not -/

namespace Sample

def person : Value := .record "app::User" [("name", .str "n"), ("age", .int 3)]

/-- A target with the age of the person. -/
def built (name : Value) : Value := .record "app::Target" [("name", name), ("age", .int 3)]

theorem clashing_settled : clashing.Settled mapping compilation target where
  unshadowed := by decide
  source := by decide
  final := by decide
  filled := by decide

/-- A method of a source alone, which becomes the default projection. -/
def direct : Method :=
  { method "u" "b" [] (field "u" "name") with parameters := [⟨"u", user.toRef, none, place⟩] }

theorem direct_settled : direct.Settled mapping compilation target where
  unshadowed := by decide
  source := by decide
  final := by decide
  filled := by decide

/-- A local that takes the name of the source before a variable reads it. -/
def presourced : Method :=
  method "u" "b" [given "u" (text "k"), given "v" (name "u")] (name "v")

/-- A local that takes the name of a variable. -/
def redeclared : Method :=
  method "u" "b" [given "v" (field "u" "name"), given "v" (text "k")] (name "v")

/-- A variable that is declared as a float. -/
def floated : Method :=
  let float : Source.TypeExpr := .named place ["float"]
  method "u" "b" [.letIn place [⟨⟨"v", place⟩, some float, some (field "u" "age")⟩]] (name "v")

/-- A variable that takes the name of the source. -/
def renamed : Method := method "u" "b" [given "u" (field "u" "name")] (name "u")

/-- The written order gives a record for the person, and the plan does not. -/
def Diverges (method : Method) (written : Value) : Prop :=
  ∃ f, Factory.ofMethod compilation user target ⟨0, place⟩ method = .ok f ∧
    f.isDegenerate = false ∧ (mapping.lower compilation f).notes = [] ∧
    method.runWritten mapping compilation target [some (.bool true)] person = .ok written ∧
    ((mapping.factoryPlan compilation f).bind [some (.bool true)] >>= fun stages =>
      (applyStages stages person).lift) ≠ .ok written

end Sample

namespace Factory

/-- Where the body of a method is settled, its plan gives a record exactly where the method
as it is written gives it: the plan of its factory for all arguments, or the default
projection that it became. -/
theorem staged_iff_written {c : Compilation} {source target : Descriptor} {declared : DeclaredAt}
    {method : Method} {f : Factory}
    (hf : Factory.ofMethod c source target declared method = .ok f) (m : Mapping)
    (hs : method.Settled m c target) :
    (f.isDegenerate = false → (m.lower c f).notes = [] → ∀ args s r,
      method.runWritten m c target args s = .ok r ↔
        ((m.factoryPlan c f).bind args >>= fun stages => (applyStages stages s).lift) = .ok r) ∧
    (f.isDegenerate = true → (m.degenerateStage c f).notes = [] → ∀ s r,
      method.runWritten m c target [] s = .ok r ↔
        ((m.degenerateStage c f).value.apply s).lift = .ok r) :=
  ⟨fun _ hn => (Factory.ofMethod_describes hf).planned_iff hs hn,
    fun hd hn => (Factory.ofMethod_describes hf).merged_iff hd hn⟩

theorem staged_iff_written_samples :
    (∃ f, Factory.ofMethod Sample.compilation Sample.user Sample.target ⟨0, Sample.place⟩
        Sample.clashing = .ok f ∧
      Sample.clashing.Settled Sample.mapping Sample.compilation Sample.target ∧
      f.isDegenerate = false ∧ (Sample.mapping.lower Sample.compilation f).notes = [] ∧
      ∀ args s r, Sample.clashing.runWritten Sample.mapping Sample.compilation Sample.target
          args s = .ok r ↔
        ((Sample.mapping.factoryPlan Sample.compilation f).bind args >>= fun stages =>
          (applyStages stages s).lift) = .ok r) ∧
    ∃ f, Factory.ofMethod Sample.compilation Sample.user Sample.target ⟨0, Sample.place⟩
        Sample.direct = .ok f ∧
      Sample.direct.Settled Sample.mapping Sample.compilation Sample.target ∧
      f.isDegenerate = true ∧ (Sample.mapping.degenerateStage Sample.compilation f).notes = [] ∧
      ∀ s r, Sample.direct.runWritten Sample.mapping Sample.compilation Sample.target [] s =
          .ok r ↔
        ((Sample.mapping.degenerateStage Sample.compilation f).value.apply s).lift = .ok r :=
  ⟨⟨_, rfl, Sample.clashing_settled, rfl, rfl, (staged_iff_written (rfl : Factory.ofMethod
      Sample.compilation Sample.user Sample.target ⟨0, Sample.place⟩ Sample.clashing = .ok _)
      Sample.mapping Sample.clashing_settled).1 rfl rfl⟩,
    ⟨_, rfl, Sample.direct_settled, rfl, rfl, (staged_iff_written (rfl : Factory.ofMethod
      Sample.compilation Sample.user Sample.target ⟨0, Sample.place⟩ Sample.direct = .ok _)
      Sample.mapping Sample.direct_settled).2 rfl rfl⟩⟩

/-- Bodies that are accepted and whose plans do something else: one for each condition. -/
theorem staged_ne_written :
    Sample.Diverges Sample.shadowed (Sample.built (.str "na")) ∧
      Sample.Diverges Sample.presourced (Sample.built (.str "k")) ∧
      Sample.Diverges Sample.resourced (Sample.built (.str "k")) ∧
      Sample.Diverges Sample.redeclared (Sample.built (.str "k")) ∧
      Sample.Diverges Sample.floated (Sample.built (.float (Number.ofInt64 3))) ∧
      Sample.Diverges Sample.renamed (Sample.built (.str "n")) := by
  refine ⟨⟨_, rfl, rfl, rfl, rfl, ?shadowed⟩, ⟨_, rfl, rfl, rfl, rfl, ?presourced⟩,
    ⟨_, rfl, rfl, rfl, rfl, ?resourced⟩, ⟨_, rfl, rfl, rfl, rfl, ?redeclared⟩,
    ⟨_, rfl, rfl, rfl, rfl, ?floated⟩, ⟨_, rfl, rfl, rfl, rfl, nofun⟩⟩
  case shadowed =>
    show (.ok (Sample.built (.str "nk")) : Except MapError Value) ≠ _
    simp [Sample.built]
  case presourced =>
    show (.ok (Sample.built Sample.person) : Except MapError Value) ≠ _
    simp [Sample.built, Sample.person]
  case resourced =>
    show (.ok (Sample.built Sample.person) : Except MapError Value) ≠ _
    simp [Sample.built, Sample.person]
  case redeclared =>
    show (.ok (Sample.built (.str "n")) : Except MapError Value) ≠ _
    simp [Sample.built]
  case floated =>
    show (.ok (Sample.built (.int 3)) : Except MapError Value) ≠ _
    simp [Sample.built]

end Factory
end StagedMapping
