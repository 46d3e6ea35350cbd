import StagedMapping.Proofs.Surfaces
import StagedMapping.Proofs.TypedResults
import StagedMapping.Proofs.WellFormedValues

/-! Results of plans are well formed. What a binding puts into the stages of a factory are
arguments, defaults and what residual statements made of them, so the constants of bound stages are
well formed as those of the plan are (`FactoryPlan.bind_wellFormed`). Stages then make well formed
values of well formed ones, on every surface; and the records that typed results are carried by have
the names of their type (`records_wellFormed`). -/
namespace StagedMapping

theorem Ensures.lift {α : Type} {P : α → Prop} {x : Eval α} (h : Ensures P x) :
    Ensures P x.lift := fun a ha => h a (Eval.lift_eq_ok.1 ha)

/-! ### Constants of plans -/

/-- The constants of the defaults, the residual statements and the stages. -/
def FactoryPlan.constants (f : FactoryPlan) : List Value :=
  f.parameters.flatMap (fun p => p.default.elim [] Tree.constants) ++
    (Residual.blockConstants f.residuals ++ (f.paramsStage.body.constants ++
      (f.varsStage.elim [] (·.body.constants) ++ f.finalStage.body.constants)))

def MapPlan.constants (m : MapPlan) : List Value :=
  m.defaultStage.body.constants ++ m.factories.flatMap FactoryPlan.constants

namespace Tree

section
variable {replace : String → Option Tree} {c : Value}

mutual

/-- The constants of a tree after a substitution are its own and those of the trees put in. -/
theorem mem_constants_substitute : (t : Tree) → c ∈ (t.substitute replace).constants →
    c ∈ t.constants ∨ ∃ name r, replace name = some r ∧ c ∈ r.constants
  | const _, h => .inl h
  | param name, h => by
    rw [substitute] at h
    cases hr : replace name with
    | none =>
      rw [hr] at h
      exact .inl h
    | some r =>
      rw [hr] at h
      exact .inr ⟨name, r, hr, h⟩
  | member base _, h => mem_constants_substitute base h
  | call receiver _ args, h => (List.mem_append.1 h).elim
      (fun h => (mem_constants_substitute receiver h).imp_left (List.mem_append_left _))
      (fun h => (mem_argConstants_substitute args h).imp_left (List.mem_append_right _))
  | cond test yes no, h => by
    rcases List.mem_append.1 h with h | h
    · exact (mem_constants_substitute test h).imp_left (List.mem_append_left _)
    rcases List.mem_append.1 h with h | h
    · exact (mem_constants_substitute yes h).imp_left fun h =>
        List.mem_append_right _ (List.mem_append_left _ h)
    · exact (mem_constants_substitute no h).imp_left fun h =>
        List.mem_append_right _ (List.mem_append_right _ h)
  | binary _ lhs rhs, h => (List.mem_append.1 h).elim
      (fun h => (mem_constants_substitute lhs h).imp_left (List.mem_append_left _))
      (fun h => (mem_constants_substitute rhs h).imp_left (List.mem_append_right _))
  | unary _ operand, h => mem_constants_substitute operand h
  | init _ bindings, h => mem_bindingConstants_substitute bindings h

theorem mem_argConstants_substitute : (ts : List Tree) →
    c ∈ argConstants (substituteArgs replace ts) →
    c ∈ argConstants ts ∨ ∃ name r, replace name = some r ∧ c ∈ r.constants
  | t :: rest, h => (List.mem_append.1 h).elim
      (fun h => (mem_constants_substitute t h).imp_left (List.mem_append_left _))
      (fun h => (mem_argConstants_substitute rest h).imp_left (List.mem_append_right _))

theorem mem_bindingConstants_substitute : (bs : List (String × Tree)) →
    c ∈ bindingConstants (substituteBindings replace bs) →
    c ∈ bindingConstants bs ∨ ∃ name r, replace name = some r ∧ c ∈ r.constants
  | (_, t) :: rest, h => (List.mem_append.1 h).elim
      (fun h => (mem_constants_substitute t h).imp_left (List.mem_append_left _))
      (fun h => (mem_bindingConstants_substitute rest h).imp_left (List.mem_append_right _))

end

end
end Tree

/-! ### Binding -/

/-- Every value that is passed is well formed. -/
def Args.WellFormed (args : Args) : Prop := ∀ v, some v ∈ args → v.WellFormed

/-- Stages whose constants are well formed. -/
def StagesWellFormed (stages : List Lambda) : Prop :=
  ∀ stage ∈ stages, ∀ c ∈ stage.body.constants, c.WellFormed

namespace FactoryPlan
variable {f : FactoryPlan}

theorem argument_wellFormed {scope : Scope} (hscope : Bindings.WellFormed scope) {p : ParameterPlan}
    (hp : ∀ c ∈ p.default.elim [] Tree.constants, c.WellFormed) {passed : Option Value}
    (hpassed : ∀ v, passed = some v → v.WellFormed) :
    Ensures Value.WellFormed (f.argument scope p passed) := by
  cases passed with
  | some v => exact ensures_ok (hpassed v rfl)
  | none =>
    unfold argument
    cases hdefault : p.default with
    | none => exact ensures_error _
    | some t =>
      rw [hdefault] at hp
      exact (Tree.eval_wellFormed hscope.values t hp).lift

theorem bindParameters_wellFormed : (ps : List ParameterPlan) → {scope : Scope} →
    Bindings.WellFormed scope →
    (∀ c ∈ ps.flatMap fun p => p.default.elim [] Tree.constants, c.WellFormed) → {args : Args} →
    args.WellFormed → Ensures Bindings.WellFormed (f.bindParameters scope ps args)
  | [], _, hscope, _, _, _ => ensures_ok hscope
  | p :: rest, scope, hscope, hc, args, hargs => by
    rw [List.flatMap_cons, List.forall_mem_append] at hc
    have hhead : ∀ v, args.head?.join = some v → v.WellFormed := by
      intro v hv
      rw [Option.join_eq_some_iff] at hv
      exact hargs v (List.mem_of_mem_head? hv)
    have htail : Args.WellFormed args.tail := fun v hv => hargs v (List.mem_of_mem_tail hv)
    rw [bindParameters]
    exact (argument_wellFormed hscope hc.1 hhead).bind fun v hv =>
      bindParameters_wellFormed rest (hscope.set p.name (hv.coerce p.type)) hc.2 htail

variable (hf : ∀ c ∈ f.constants, c.WellFormed) {args : Args} (hargs : args.WellFormed)
include hf

theorem boundParams_wellFormed {scope : Scope} (hscope : Bindings.WellFormed scope) :
    ∀ c ∈ (f.boundParams scope).body.constants, c.WellFormed := by
  intro c hc
  rcases Tree.mem_constants_substitute _ hc with hc | ⟨name, r, hr, hc⟩
  · exact hf c (by simp [constants, hc])
  · split at hr
    · obtain ⟨v, hv, rfl⟩ := Option.map_eq_some_iff.1 hr
      rw [List.mem_singleton.1 hc]
      exact hscope.values _ (Bindings.mem_of_get? hv)
    · cases hr

include hargs

theorem boundScope_wellFormed : Ensures Bindings.WellFormed (f.boundScope args) := by
  obtain ⟨hparameters, hc⟩ := List.forall_mem_append.1 hf
  obtain ⟨hresiduals, -⟩ := List.forall_mem_append.1 hc
  rw [boundScope]
  split
  · exact ensures_error _
  · refine (bindParameters_wellFormed f.parameters Bindings.wellFormed_nil hparameters hargs).bind
      fun scope hscope => Ensures.lift ?_
    have hafter := Residual.execAll_keeps Residual.kept_wellFormed f.residuals hscope hresiduals
    unfold Outcome.toExcept
    split
    · exact ensures_ok hafter
    · exact ensures_error _

theorem bind_wellFormed : Ensures StagesWellFormed (f.bind args) := by
  rw [bind]
  refine (boundScope_wellFormed hf hargs).bind fun scope hscope => ensures_ok ?_
  intro stage hstage
  rcases List.mem_append.1 hstage with hstage | hstage
  · rcases List.mem_cons.1 hstage with rfl | hstage
    · exact boundParams_wellFormed hf hscope
    · rw [Option.mem_toList] at hstage
      exact fun c hc => hf c (by simp [constants, hstage, hc])
  · rw [List.mem_singleton.1 hstage]
    exact fun c hc => hf c (by simp [constants, hc])

end FactoryPlan

theorem MapPlan.bind_wellFormed {m : MapPlan} (hm : ∀ c ∈ m.constants, c.WellFormed)
    (digest : String) {args : Args} (hargs : args.WellFormed) :
    Ensures StagesWellFormed (m.bind digest args) := by
  intro stages h
  obtain ⟨f, hf, h⟩ := bind_eq_ok.1 h
  have hmem : f ∈ m.factories := by
    unfold factory at hf
    split at hf
    · next g hg =>
      cases hf
      exact List.mem_of_find?_eq_some hg
    · cases hf
  exact FactoryPlan.bind_wellFormed
    (fun c hc => hm c (List.mem_append_right _ (List.mem_flatMap.2 ⟨f, hmem, hc⟩))) hargs stages h

/-! ### Stages and surfaces -/

theorem applyStages_wellFormed : {stages : List Lambda} → StagesWellFormed stages → {v : Value} →
    v.WellFormed → Ensures Value.WellFormed (applyStages stages v)
  | [], _, _, hv => ensures_ok hv
  | stage :: rest, h, v, hv => by
    obtain ⟨hstage, hrest⟩ := List.forall_mem_cons.1 h
    have hscope : ∀ b ∈ [(stage.param, v)], b.2.WellFormed := List.forall_mem_singleton.2 hv
    rw [applyStages]
    exact (Tree.eval_wellFormed hscope stage.body hstage).bind fun w hw =>
      applyStages_wellFormed hrest hw

/-- Well formed values are mapped to well formed values. -/
def KeepsWellFormed (f : MapFunction) : Prop :=
  ∀ v, v.WellFormed → Ensures Value.WellFormed (f v)

/-- Rows and stages that are well formed. -/
structure Query.WellFormed (q : Query) : Prop where
  rows : ∀ v ∈ q.rows, v.WellFormed
  stages : StagesWellFormed q.stages

/-- The values that a query lists are well formed. -/
def Query.ListsWellFormed (q : Query) : Prop := Ensures (∀ v ∈ ·, Value.WellFormed v) q.toList

/-- The values that an iterator gives are well formed, however many are read. -/
def MapIter.GivesWellFormed (it : MapIter) : Prop :=
  ∀ results last, it.Yields results last → ∀ v, .ok v ∈ results → v.WellFormed

theorem Query.WellFormed.lists {q : Query} (h : q.WellFormed) : q.ListsWellFormed := by
  intro rows hrows w hw
  obtain ⟨v, hv, hvw⟩ := exists_of_mapM_eq_ok hrows hw
  exact applyStages_wellFormed h.stages (h.rows v hv) w hvw

theorem Query.WellFormed.append {q : Query} (h : q.WellFormed) {stages : List Lambda}
    (hstages : StagesWellFormed stages) : Query.WellFormed ⟨q.rows, q.stages ++ stages⟩ :=
  ⟨h.rows, List.forall_mem_append.2 ⟨h.stages, hstages⟩⟩

theorem KeepsWellFormed.gives {f : MapFunction} (hf : KeepsWellFormed f) {values : List Value}
    (hvalues : ∀ v ∈ values, v.WellFormed) : MapIter.GivesWellFormed ⟨values, f⟩ := by
  intro results last h w hw
  have hmem : .ok w ∈ MapIter.results ⟨values, f⟩ := by
    rw [h.results_eq]
    exact List.mem_append_left _ hw
  obtain ⟨v, hv, hvw⟩ := List.mem_map.1 hmem
  exact hf v (hvalues v hv) w hvw

theorem keepsWellFormed_stages {stages : List Lambda} (h : StagesWellFormed stages) :
    KeepsWellFormed fun v => (applyStages stages v).lift :=
  fun _ hv => (applyStages_wellFormed h hv).lift

/-- All that the surfaces of a mapping make is well formed; surfaces that are refused make
nothing. -/
structure SurfacesWellFormed (eager : MapFunction) (function : Except MapError MapFunction)
    (query : Except MapError Query) (iter : Except MapError MapIter) : Prop where
  mapped : KeepsWellFormed eager
  called : Ensures KeepsWellFormed function
  listed : Ensures Query.ListsWellFormed query
  given : Ensures MapIter.GivesWellFormed iter

section
variable {q : Query} (hq : q.WellFormed) {values : List Value}
  (hvalues : ∀ v ∈ values, v.WellFormed)
include hq hvalues

theorem surfacesWellFormed_stages {stages : List Lambda} (h : StagesWellFormed stages) :
    SurfacesWellFormed (fun v => (applyStages stages v).lift)
      (.ok fun v => (applyStages stages v).lift) (.ok ⟨q.rows, q.stages ++ stages⟩)
      (.ok ⟨values, fun v => (applyStages stages v).lift⟩) where
  mapped := keepsWellFormed_stages h
  called := ensures_ok (keepsWellFormed_stages h)
  listed := ensures_ok (hq.append h).lists
  given := ensures_ok ((keepsWellFormed_stages h).gives hvalues)

namespace MapPlan
variable {m : MapPlan} (hm : ∀ c ∈ m.constants, c.WellFormed)
include hm

theorem surfaces_wellFormed :
    SurfacesWellFormed m.map (.ok m.callable) (.ok (m.project q)) (.ok (m.iter values)) := by
  have hstages : StagesWellFormed [m.defaultStage] :=
    List.forall_mem_singleton.2 fun c hc => hm c (List.mem_append_left _ hc)
  have h := surfacesWellFormed_stages hq hvalues hstages
  simp only [applyStages_singleton] at h
  exact h

theorem surfacesWith_wellFormed (digest : String) {args : Args} (hargs : args.WellFormed) :
    SurfacesWellFormed (m.mapWith digest args) (m.callableWith digest args)
      (m.projectWith digest args q) (m.iterWith digest args values) := by
  have hbound := bind_wellFormed hm digest hargs
  unfold mapWith projectWith iterWith callableWith
  cases hb : m.bind digest args with
  | error e => exact ⟨fun _ _ => ensures_error _, ensures_error _, ensures_error _, ensures_error _⟩
  | ok stages =>
    have h := surfacesWellFormed_stages hq hvalues (hbound stages hb)
    rw [← Query.foldl_select] at h
    exact h

end MapPlan
end

/-! ### Typed results -/

namespace FieldType

/-- The fields of each record in the type have different names. -/
inductive DistinctFields : FieldType → Prop where
  | str : DistinctFields str
  | int : DistinctFields int
  | int32 : DistinctFields int32
  | float : DistinctFields float
  | bool : DistinctFields bool
  | any : DistinctFields any
  | option {type : FieldType} (htype : DistinctFields type) : DistinctFields (option type)
  | list {type : FieldType} (htype : DistinctFields type) : DistinctFields (list type)
  | record {ns name : String} {params : List String} {fields : List (String × Access × FieldType)}
    (hnames : (Bindings.names fields).Nodup) (hfields : ∀ f ∈ fields, DistinctFields f.2.2) :
    DistinctFields (record ns name params fields)

/-- What carries a typed value is well formed. -/
def Carries (type : FieldType) (x : type.Carrier) : Prop := (toValue type x).WellFormed

/-- Typed values that are made of well formed ones are carried by well formed ones. -/
def StaysWellFormed (type : FieldType) : Prop :=
  ∀ v, v.WellFormed → Ensures type.Carries (ofValue type v)

theorem ofFields_wellFormed (typeName : String) : {fields : List (String × Access × FieldType)} →
    (∀ f ∈ fields, f.2.2.StaysWellFormed) → {values : List (String × Value)} →
    (∀ b ∈ values, b.2.WellFormed) →
    Ensures (fun r => ∀ b ∈ toFields fields r, b.2.WellFormed) (ofFields typeName fields values)
  | [], _, _, _ => ensures_ok nofun
  | (name, _, type) :: rest, hfields, values, hvalues => by
    obtain ⟨hfirst, hrest⟩ := List.forall_mem_cons.1 hfields
    rw [ofFields]
    split
    · exact ensures_error _
    · next v others htake =>
      obtain ⟨key, hperm⟩ := perm_of_takeField htake
      obtain ⟨hv, hothers⟩ := List.forall_mem_cons.1 fun b hb => hvalues b (hperm.mem_iff.1 hb)
      exact (hfirst v hv).bind fun a ha =>
        (ofFields_wellFormed typeName hrest hothers).bind fun r hr =>
          ensures_ok (List.forall_mem_cons.2 ⟨ha, hr⟩)

theorem carries_record {ns name : String} {params : List String}
    {fields : List (String × Access × FieldType)} (hnames : (Bindings.names fields).Nodup)
    {r : FieldCarriers fields} (hr : ∀ b ∈ toFields fields r, b.2.WellFormed) :
    (record ns name params fields).Carries r :=
  .record (by rwa [names_toFields]) hr

theorem ofValue_wellFormed {type : FieldType} (h : type.DistinctFields) :
    type.StaysWellFormed := by
  induction h with
  | str => exact fun _ _ s _ => .str s
  | int => exact fun _ _ n _ => .int n
  | int32 => exact fun _ _ n _ => .int n.toInt64
  | float => exact fun _ _ x _ => .float x
  | bool => exact fun _ _ b _ => .bool b
  | any => exact fun v hv => ensures_ok hv
  | option _ ih =>
    intro v hv
    by_cases hnone : v = .none
    · subst hnone
      exact ensures_ok .none
    · rw [ofValue_option hnone]
      intro x hx
      obtain ⟨a, ha, rfl⟩ := map_eq_ok.1 hx
      exact ih v hv a ha
  | list _ ih =>
    intro v hv
    cases hv with
    | list hitems =>
      intro xs hxs
      refine .list fun w hw => ?_
      obtain ⟨x, hx, rfl⟩ := List.mem_map.1 hw
      obtain ⟨item, hitem, hof⟩ := exists_of_mapM_eq_ok hxs hx
      exact ih item (hitems item hitem) x hof
    | _ => exact ensures_error _
  | record hnames _ ih =>
    intro v hv
    cases hv with
    | record _ hvalues =>
      exact fun r hr => carries_record hnames (ofFields_wellFormed _ ih hvalues r hr)
    | _ => exact ensures_error _

end FieldType

theorem Bindings.wellFormed_overwritten {new old : List (String × Value)}
    (hnew : ∀ f ∈ new, f.2.WellFormed) (hold : WellFormed old) :
    WellFormed (new.foldl (fun r f => set r f.1 f.2) old) := by
  induction new generalizing old with
  | nil => exact hold
  | cons f rest ih =>
    obtain ⟨hf, hrest⟩ := List.forall_mem_cons.1 hnew
    exact ih hrest (hold.set f.1 hf)

theorem intoTargetFrom_wellFormed {type : FieldType} (h : type.DistinctFields)
    {start : type.Carrier} (hstart : type.Carries start) {v : Value} (hv : v.WellFormed) :
    Ensures type.Carries (intoTargetFrom type start v) := by
  cases h with
  | record hnames hfields =>
    cases hv with
    | record _ hproduced =>
      intro r hr
      cases hstart with
      | record hkept hvalues =>
        have hall := Bindings.wellFormed_overwritten hproduced ⟨hkept, hvalues⟩
        exact FieldType.carries_record hnames (FieldType.ofFields_wellFormed _
          (fun f hf => FieldType.ofValue_wellFormed (hfields f hf)) hall.values r
          (mapError_eq_ok.1 hr))
    | _ => exact ensures_error _
  | _ => exact ensures_error _

/-! ### Records -/

/-- Records stay well formed, from evaluation to the results of plans. Statements keep the names of
their scope different whatever the constants are, and its values well formed where the constants
are, also where a failure stops them. Where the constants of a plan are well formed, so is what any
of its surfaces makes of well formed arguments and sources, and the record that a typed result is
carried by. -/
theorem records_wellFormed :
    (∀ (t : Tree) (scope : Scope), (∀ c ∈ t.constants, c.WellFormed) →
      (∀ b ∈ scope, b.2.WellFormed) → Ensures Value.WellFormed (t.eval scope)) ∧
    (∀ (ss : List Residual) (scope : Scope), (Bindings.names scope).Nodup →
      (Bindings.names (Residual.execAll scope ss).scope).Nodup ∧
      ((∀ c ∈ Residual.blockConstants ss, c.WellFormed) → (∀ b ∈ scope, b.2.WellFormed) →
        ∀ b ∈ (Residual.execAll scope ss).scope, b.2.WellFormed)) ∧
    (∀ (m : MapPlan) (q : Query) (values : List Value), (∀ c ∈ m.constants, c.WellFormed) →
      q.WellFormed → (∀ v ∈ values, v.WellFormed) →
      SurfacesWellFormed m.map (.ok m.callable) (.ok (m.project q)) (.ok (m.iter values)) ∧
      ∀ digest args, Args.WellFormed args →
        SurfacesWellFormed (m.mapWith digest args) (m.callableWith digest args)
          (m.projectWith digest args q) (m.iterWith digest args values)) ∧
    ∀ (type : FieldType) (start : type.Carrier) (v : Value), type.DistinctFields →
      type.Carries start → v.WellFormed → Ensures type.Carries (intoTargetFrom type start v) := by
  refine ⟨fun t scope hc hscope => Tree.eval_wellFormed hscope t hc,
    fun ss scope hnames => ⟨?_, ?_⟩,
    fun m q values hm hq hvalues => ⟨?_, fun digest args hargs => ?_⟩,
    fun type start v htype hstart hv => intoTargetFrom_wellFormed htype hstart hv⟩
  · exact Residual.execAll_keeps Residual.kept_distinct ss hnames fun _ _ => trivial
  · intro hc hvalues
    exact (Residual.execAll_keeps Residual.kept_wellFormed ss ⟨hnames, hvalues⟩ hc).values
  · exact MapPlan.surfaces_wellFormed hq hvalues hm
  · exact MapPlan.surfacesWith_wellFormed hq hvalues hm digest hargs

/-- A factory that captures a constant record, and whose last stage binds a field twice. -/
theorem records_wellFormed_labelled :
    let label : Value := .record "Label" [("text", .str "new"), ("rank", .int 1)]
    let user : Value := .record "User" [("name", .str "Foo"), ("id", .int 7)]
    let factory : FactoryPlan := {
      declaration := "labelled", digest := "d0"
      parameters := [⟨"city", "str", none⟩]
      residuals := [.letIn "label" none (some (.const label))]
      captures := [("label", "Label")]
      paramsShape := ⟨"Params", [("user", "User"), ("label", "Label"), ("city", "str")]⟩
      varsShape := none
      paramsStage := ⟨"user", .init "Params" [("user", .param "user"), ("label", .param "label"),
        ("city", .param "city")]⟩
      varsStage := none
      finalStage := ⟨"p", .init "Summary" [("city", .member (.param "p") "city"),
        ("label", .member (.param "p") "label"),
        ("city", .member (.member (.param "p") "user") "name")]⟩ }
    let plan : MapPlan := ⟨"User", "Summary", ⟨"user", .init "Summary" []⟩, [factory]⟩
    let made : Value := .record "Summary" [("city", .str "Foo"), ("label", label)]
    (∀ c ∈ plan.constants, c.WellFormed) ∧ user.WellFormed ∧ Args.WellFormed [some (.str "Oslo")] ∧
      plan.mapWith "d0" [some (.str "Oslo")] user = .ok made ∧ made.WellFormed := by
  intro label user factory plan made
  have hlabel : label.WellFormed := by
    refine .record (by decide) ?_
    simp only [List.forall_mem_cons]
    exact ⟨.str _, .int _, List.forall_mem_nil _⟩
  have huser : user.WellFormed := by
    refine .record (by decide) ?_
    simp only [List.forall_mem_cons]
    exact ⟨.str _, .int _, List.forall_mem_nil _⟩
  have hplan : ∀ c ∈ plan.constants, c.WellFormed := by
    show ∀ c ∈ [label], c.WellFormed
    exact List.forall_mem_singleton.2 hlabel
  have hargs : Args.WellFormed [some (.str "Oslo")] := by
    intro v hv
    cases List.mem_singleton.1 hv
    exact .str _
  have hmade : plan.mapWith "d0" [some (.str "Oslo")] user = .ok made := rfl
  obtain ⟨-, hwith⟩ := records_wellFormed.2.2.1 plan (.ofRows []) [] hplan
    ⟨List.forall_mem_nil _, List.forall_mem_nil _⟩ (List.forall_mem_nil _)
  exact ⟨hplan, huser, hargs, hmade, (hwith "d0" _ hargs).mapped user huser made hmade⟩

end StagedMapping
