import StagedMapping.Proofs.DefaultProjection
import StagedMapping.Proofs.WrittenOrder

/-! Constructions as results and inside expressions. Where a factory builds its target, the
first initializer of a property counts (`get?_keptInitializers`, `Mapping.targetFields_eq`),
and in a construction inside an expression the last one (`Source.Argument.listEval_eq`). So
one construction has the same fields in both places exactly if the first and the last
initializer of each property have one value, as where no property is named twice
(`Factory.construction_first_last`, `Factory.construction_differs`). -/
namespace StagedMapping

/-! ### Fields set one after the other -/

namespace Bindings
variable {α : Type}

/-- Evaluates bindings in order, and sets each name to its value. -/
def setEach (value : α → Eval Value) (fields : List (String × Value)) (bs : List (String × α)) :
    Eval (List (String × Value)) := do
  return setAll fields (← bs.mapM fun b => do return (b.1, ← value b.2))

theorem setEach_cons (value : α → Eval Value) (fields : List (String × Value)) (b : String × α)
    (rest : List (String × α)) : setEach value fields (b :: rest) =
      value b.2 >>= fun v => setEach value (set fields b.1 v) rest := by
  rw [setEach, List.mapM_cons]
  cases value b.2 with
  | error e => rfl
  | ok v =>
    show (((rest.mapM fun b => do return (b.1, ← value b.2)) >>= fun others =>
      .ok ((b.1, v) :: others)) >>= fun values => .ok (setAll fields values) : Eval _) =
        ((rest.mapM fun b => do return (b.1, ← value b.2)) >>= fun values =>
          .ok (setAll (set fields b.1 v) values) : Eval _)
    cases (rest.mapM fun b => do return (b.1, ← value b.2) : Eval _) <;> rfl

theorem exists_setEach {value : α → Eval Value} {bs : List (String × α)}
    (h : ∀ b ∈ bs, ∃ v, value b.2 = .ok v) : ∃ fields, setEach value [] bs = .ok fields := by
  obtain ⟨values, hvalues⟩ := exists_mapM_eq_ok
    (f := fun b : String × α => (do return (b.1, ← value b.2) : Eval _)) fun b hb =>
      let ⟨v, hv⟩ := h b hb
      ⟨(b.1, v), by rw [hv]; rfl⟩
  exact ⟨setAll [] values, by rw [setEach, hvalues]; rfl⟩

/-- The last binding of a name counts. -/
theorem get?_of_setEach {value : α → Eval Value} {bs : List (String × α)}
    {fields : List (String × Value)} (h : setEach value [] bs = .ok fields) {n : String} {x : α}
    (hx : get? bs.reverse n = some x) : ∃ v, value x = .ok v ∧ get? fields n = some v := by
  obtain ⟨values, hvalues, hset⟩ := bind_eq_ok.1 h
  cases hset
  obtain ⟨v, hv, hget⟩ := get?_of_mapM (mapM_reverse_eq_ok hvalues) hx
  exact ⟨v, hv, by rw [get?_setAll, hget, Option.some_or]⟩

theorem exists_of_setEach_error {value : α → Eval Value} {bs : List (String × α)} {e : EvalError}
    (h : setEach value [] bs = .error e) : ∃ b ∈ bs, value b.2 = .error e := by
  rcases bind_eq_error.1 h with h | ⟨_, _, h⟩
  · obtain ⟨before, b, after, hbs, -, hb⟩ := mapM_eq_error_iff.1 h
    refine ⟨b, by simp [hbs], ?_⟩
    rcases bind_eq_error.1 hb with hb | ⟨_, _, hb⟩
    · exact hb
    · cases hb
  · cases h

end Bindings

/-! ### Initializers -/

namespace Source

/-- The named arguments of a construction. -/
def initializers (args : List Argument) : List (String × Expr) :=
  args.filterMap fun a => a.name?.map fun n => (n.text, a.value)

/-- The value of the first initializer of a property. -/
def firstValue (types : TypeExpr → TypeRef) (env : Scope) (args : List Argument)
    (name : String) : Eval Value :=
  match Bindings.get? (initializers args) name with
  | some e => e.eval types env
  | none => .error (.unbound name)

/-- The value of the last initializer of a property. -/
def lastValue (types : TypeExpr → TypeRef) (env : Scope) (args : List Argument)
    (name : String) : Eval Value :=
  match Bindings.get? (initializers args).reverse name with
  | some e => e.eval types env
  | none => .error (.unbound name)

theorem exists_argument {args : List Argument} {b : String × Expr} (h : b ∈ initializers args) :
    ∃ a ∈ args, ∃ n, a.name? = some n ∧ (n.text, a.value) = b := by
  obtain ⟨a, ha, hb⟩ := List.mem_filterMap.1 h
  obtain ⟨n, hn, hb⟩ := Option.map_eq_some_iff.1 hb
  exact ⟨a, ha, n, hn, hb⟩

theorem exists_initializer {args : List Argument} {name : String}
    (h : name ∈ Bindings.names (initializers args)) :
    (∃ e, Bindings.get? (initializers args) name = some e) ∧
      ∃ e, Bindings.get? (initializers args).reverse name = some e := by
  have last : name ∈ Bindings.names (initializers args).reverse := by
    rw [Bindings.names, List.map_reverse]
    exact List.mem_reverse.2 h
  exact ⟨Option.isSome_iff_exists.1 ((Bindings.get?_isSome ..).2 h),
    Option.isSome_iff_exists.1 ((Bindings.get?_isSome ..).2 last)⟩

theorem exists_firstValue {types : TypeExpr → TypeRef} {env : Scope} {args : List Argument}
    (h : ∀ a ∈ args, ∃ v, a.value.eval types env = .ok v) {name : String}
    (hname : name ∈ Bindings.names (initializers args)) :
    ∃ v, firstValue types env args name = .ok v := by
  obtain ⟨e, he⟩ := (exists_initializer hname).1
  obtain ⟨a, ha, n, -, hb⟩ := exists_argument (Bindings.mem_of_get? he)
  cases hb
  rw [firstValue, he]
  exact h a ha

/-- Where no property is named twice, the first initializer is the last one. -/
theorem firstValue_eq_lastValue {args : List Argument}
    (h : (Bindings.names (initializers args)).Nodup) (types : TypeExpr → TypeRef) (env : Scope)
    (name : String) : firstValue types env args name = lastValue types env args name := by
  rw [firstValue, lastValue, Bindings.get?_perm (List.reverse_perm _) h]

/-- Fields that are set one after the other take the values of all initializers. -/
theorem Argument.listEval_eq (types : TypeExpr → TypeRef) (env : Scope) (args : List Argument)
    (fields : List (String × Value)) : Argument.listEval types env fields args =
      Bindings.setEach (·.eval types env) fields (initializers args) := by
  induction args generalizing fields with
  | nil => rfl
  | cons a rest ih =>
    cases a with
    | positional value =>
      rw [Argument.listEval, ih]
      rfl
    | named name value =>
      show _ = Bindings.setEach _ fields ((name.text, value) :: initializers rest)
      rw [Argument.listEval, Bindings.setEach_cons]
      exact congrArg _ (funext fun v => ih _)

/-- A construction inside an expression is a record with the values of the last initializers. -/
theorem Expr.construct_eval {types : TypeExpr → TypeRef} {env : Scope} {args : List Argument}
    (h : ∀ a ∈ args, ∃ v, a.value.eval types env = .ok v) (span : Span) (type : TypeExpr) :
    ∃ nested, (Expr.construct span type args).eval types env = .ok nested ∧
      ∀ name ∈ Bindings.names (initializers args),
        nested.member name = lastValue types env args name := by
  have values : ∀ b ∈ initializers args, ∃ v, b.2.eval types env = .ok v := by
    intro b hb
    obtain ⟨a, ha, n, -, rfl⟩ := exists_argument hb
    exact h a ha
  obtain ⟨fields, hfields⟩ :
      ∃ fields, Bindings.setEach (·.eval types env) [] (initializers args) = .ok fields :=
    Bindings.exists_setEach values
  refine ⟨.record (types type).qualified fields, ?_, fun name hname => ?_⟩
  · rw [eval, Argument.listEval_eq, hfields]
    rfl
  · obtain ⟨e, he⟩ := (exists_initializer hname).2
    obtain ⟨v, hv, hget⟩ := Bindings.get?_of_setEach hfields he
    rw [lastValue, he, Value.member, hget]
    exact hv.symm

end Source

/-- Every argument initializes a property. -/
def Descriptor.InitializedBy (target : Descriptor) (args : List Source.Argument) : Prop :=
  ∀ a ∈ args, ∃ n p, a.name? = some n ∧ target.property? n.text = some p

/-- An argument initializes its property if nothing before it did. -/
theorem find?_addInitializer {target : Descriptor} {a : Source.Argument} {n : Source.Ident}
    {p : Property} (hn : a.name? = some n) (hp : target.property? n.text = some p)
    (kept : List Initializer) (name : String) :
    ((addInitializer target kept a).find? (·.target.name == name)).map (·.value) =
      ((kept.find? (·.target.name == name)).map (·.value)).or
        (if n.text = name then some a.value else none) := by
  have named : p.name = n.text := by simpa using List.find?_some hp
  rw [addInitializer, hn, Option.bind_some, hp]
  dsimp only
  rw [named]
  split
  case isTrue seen =>
    by_cases same : n.text = name
    · subst same
      obtain ⟨i, hi⟩ := Option.isSome_iff_exists.1 (List.find?_isSome.2 (List.any_eq_true.1 seen))
      rw [hi]
      rfl
    · rw [if_neg same, Option.or_none]
  case isFalse =>
    rw [List.find?_append, Option.map_or]
    congr 1
    by_cases same : n.text = name <;> simp [named, same]

/-- Of several arguments for one property the first is kept. -/
theorem get?_keptInitializers {target : Descriptor} {args : List Source.Argument}
    (h : target.InitializedBy args) (name : String) :
    ((keptInitializers target args).find? (·.target.name == name)).map (·.value) =
      Bindings.get? (Source.initializers args) name := by
  have run (kept : List Initializer) :
      ((args.foldl (addInitializer target) kept).find? (·.target.name == name)).map (·.value) =
        ((kept.find? (·.target.name == name)).map (·.value)).or
          (Bindings.get? (Source.initializers args) name) := by
    induction args generalizing kept with
    | nil => exact Option.or_none.symm
    | cons a rest ih =>
      obtain ⟨n, p, hn, hp⟩ := h a List.mem_cons_self
      have written : Source.initializers (a :: rest) =
          (n.text, a.value) :: Source.initializers rest := by
        rw [Source.initializers, List.filterMap_cons, hn]
        rfl
      rw [List.foldl_cons, ih fun b hb => h b (List.mem_cons_of_mem _ hb),
        find?_addInitializer hn hp, Option.or_assoc, written, Bindings.get?_cons]
      by_cases same : n.text = name <;> simp [same]
  exact run []

namespace Mapping
variable {m : Mapping}

/-- What is given for a property, else what is filled in for it. -/
def fieldValue? (m : Mapping) (given : String → Option (Eval Value)) (filled : String → Eval Value)
    (name : String) : Option (Eval Value) :=
  (given name).or
    ((m.properties.find? (·.target.name == name)).map fun p => filled p.source.name)

def fieldValues (m : Mapping) (given : String → Option (Eval Value)) (filled : String → Eval Value)
    (names : List String) : List (String × Eval Value) :=
  names.filterMap fun n => (m.fieldValue? given filled n).map (n, ·)

theorem get?_fieldValues (given : String → Option (Eval Value)) (filled : String → Eval Value)
    (names : List String) (name : String) :
    Bindings.get? (m.fieldValues given filled names) name =
      if name ∈ names then m.fieldValue? given filled name else none := by
  induction names with
  | nil => rfl
  | cons n rest ih =>
    have first : m.fieldValues given filled (n :: rest) =
        ((m.fieldValue? given filled n).map (n, ·)).toList ++ m.fieldValues given filled rest := by
      rw [fieldValues, List.filterMap_cons]
      cases m.fieldValue? given filled n <;> rfl
    rw [first, Bindings.get?_append, ih]
    by_cases same : n = name
    · subst same
      cases m.fieldValue? given filled n <;> simp
    · cases m.fieldValue? given filled n <;> simp [same, Ne.symm same]

theorem targetFields_eq (given : String → Option (Eval Value)) (filled : String → Eval Value)
    (names : List String) (fields : List (String × Value)) :
    m.targetFields given filled fields names =
      Bindings.setEach id fields (m.fieldValues given filled names) := by
  induction names generalizing fields with
  | nil => rfl
  | cons name rest ih =>
    rw [targetFields, fieldValues, List.filterMap_cons, fieldValue?]
    cases given name with
    | some x =>
      simp only [ih]
      exact (Bindings.setEach_cons id fields (name, x) (m.fieldValues given filled rest)).symm
    | none =>
      cases m.properties.find? (·.target.name == name) with
      | some p =>
        simp only [ih]
        exact (Bindings.setEach_cons id fields (name, filled p.source.name)
          (m.fieldValues given filled rest)).symm
      | none => exact ih fields

/-- The members of a target: what is given for them, or filled in. -/
theorem targetRecord_member {c : Compilation} {given : String → Option (Eval Value)}
    {filled : String → Eval Value} {r : Value} (h : m.targetRecord c given filled = .ok r)
    {name : String} (hname : name ∈ m.targetProperties c) {x : Eval Value}
    (hx : m.fieldValue? given filled name = some x) : r.member name = x := by
  obtain ⟨fields, hfields, hr⟩ := bind_eq_ok.1 h
  cases hr
  rw [targetFields_eq] at hfields
  have last : Bindings.get? (m.fieldValues given filled (m.targetProperties c)).reverse name =
      some x := by
    rw [fieldValues, ← List.filterMap_reverse]
    exact (get?_fieldValues ..).trans (by rw [if_pos (List.mem_reverse.2 hname), hx])
  obtain ⟨v, hv, hget⟩ := Bindings.get?_of_setEach hfields last
  rw [Value.member, hget]
  exact hv.symm

theorem targetRecord_error {c : Compilation} {given : String → Option (Eval Value)}
    {filled : String → Eval Value} {e : EvalError} (h : m.targetRecord c given filled = .error e) :
    ∃ name ∈ m.targetProperties c, m.fieldValue? given filled name = some (.error e) := by
  rcases bind_eq_error.1 h with h | ⟨_, _, h⟩
  · rw [targetFields_eq] at h
    obtain ⟨b, hb, he⟩ := Bindings.exists_of_setEach_error h
    obtain ⟨name, hname, hentry⟩ := List.mem_filterMap.1 hb
    obtain ⟨x, hx, rfl⟩ := Option.map_eq_some_iff.1 hentry
    exact ⟨name, hname, hx.trans (congrArg some he)⟩
  · cases h

/-! ### Runs of a factory -/

/-- What a factory with some arguments does to a value of its source, by its stages or as the
default projection, and the scope that its arguments leave. -/
inductive Runs (m : Mapping) (c : Compilation) (f : Factory) :
    Scope → (Value → Eval Value) → Prop
  | staged (args : Args) {scope : Scope} {stages : List Lambda}
      (hscope : (m.factoryPlan c f).boundScope args = .ok scope)
      (hb : (m.factoryPlan c f).bind args = .ok stages) : Runs m c f scope (applyStages stages)
  | merged (hd : f.isDegenerate = true) : Runs m c f [] (m.degenerateStage c f).value.apply

theorem Runs.eq_unstaged {c : Compilation} {f : Factory} (hf : f.Scoped) {scope : Scope}
    {run : Value → Eval Value} (h : m.Runs c f scope run) (s : Value) :
    run s = m.unstaged c f scope s := by
  cases h with
  | staged args hscope hb =>
    obtain ⟨scope', hscope', rfl⟩ := FactoryPlan.bind_eq_ok.1 hb
    cases hscope.symm.trans hscope'
    exact m.applyStages_eq_unstaged c f ((m.boundScope_binds c hf args).after scope hscope) s
  | merged hd => exact m.degenerateStage_eq_unstaged hf hd c s

/-- What the final construction of a factory is evaluated in: the source under its name, and
the variables. -/
def environment (m : Mapping) (c : Compilation) (f : Factory) (scope : Scope) (s : Value) :
    Eval Scope := do
  let start := Bindings.set scope f.sourceParam s
  return Bindings.setAll start
    (← Reordering.evaluate (m.types c) start (f.vars.map fun v => (v.name, v.value)))

theorem unstaged_eq_built {c : Compilation} {f : Factory} (h : (m.lower c f).notes = [])
    (scope : Scope) (s : Value) :
    m.unstaged c f scope s = m.environment c f scope s >>= m.builtWritten c f := by
  rw [unstaged_eq_written h, environment]
  cases Reordering.evaluate (m.types c) (Bindings.set scope f.sourceParam s)
    (f.vars.map fun v => (v.name, v.value)) <;> rfl

/-- What is given for the target: the values of the first initializers. -/
def givenFirst (m : Mapping) (c : Compilation) (args : List Source.Argument) (env : Scope)
    (name : String) : Option (Eval Value) :=
  (Bindings.get? (Source.initializers args) name).map (·.eval (m.types c) env)

/-- What is filled in for the target: the members of the source. -/
def filledIn (f : Factory) (env : Scope) (p : String) : Eval Value :=
  (Tree.member (.param f.sourceParam) p).eval env

section
variable {c : Compilation} {target : Descriptor} {args : List Source.Argument} {env : Scope}

theorem fieldValue?_of_initializer {f : Factory} {name : String}
    (h : name ∈ Bindings.names (Source.initializers args)) :
    m.fieldValue? (m.givenFirst c args env) (filledIn f env) name =
      some (Source.firstValue (m.types c) env args name) := by
  obtain ⟨e, he⟩ := (Source.exists_initializer h).1
  rw [fieldValue?, givenFirst, Source.firstValue, he]
  rfl

theorem mem_targetProperties (ht : c.descriptor? m.target = some target)
    (h : target.InitializedBy args) {name : String}
    (hname : name ∈ Bindings.names (Source.initializers args)) :
    name ∈ m.targetProperties c := by
  obtain ⟨b, hb, rfl⟩ := List.mem_map.1 hname
  obtain ⟨a, ha, n, hn, rfl⟩ := Source.exists_argument hb
  obtain ⟨n', p, hn', hp⟩ := h a ha
  cases hn.symm.trans hn'
  rw [targetProperties, ht]
  exact List.mem_map.2 ⟨p, List.mem_of_find?_eq_some hp, by simpa using List.find?_some hp⟩

end

/-- A run builds its target of the first initializers. -/
theorem Runs.eq_targetRecord {c : Compilation} {target : Descriptor} {declared : DeclaredAt}
    {method : Method} {f : Factory} (hf : f.Describes c target declared method)
    (hn : (m.lower c f).notes = []) (hargs : target.InitializedBy method.finalArguments)
    {scope : Scope} {run : Value → Eval Value} (h : m.Runs c f scope run) {s : Value} {env : Scope}
    (henv : m.environment c f scope s = .ok env) :
    run s = m.targetRecord c (m.givenFirst c method.finalArguments env) (filledIn f env) := by
  rw [h.eq_unstaged hf.scoped, unstaged_eq_built hn, henv]
  show m.builtWritten c f env = _
  rw [builtWritten, hf.initializers]
  refine congrArg (m.targetRecord c · _) (funext fun name => ?_)
  rw [givenFirst, ← get?_keptInitializers hargs, Option.map_map]
  rfl

end Mapping

namespace Sample

def construction (args : List (String × Source.Expr)) : Source.Expr :=
  .construct place (.named place ["app", "Target"]) (args.map fun a => .named ⟨a.1, place⟩ a.2)

/-- A method of a source and a flag, with a variable `v` for the name of the source. -/
def constructing (args : List (String × Source.Expr)) : Method :=
  { method "u" "b" [] (text "") with
    body := some [given "v" (field "u" "name"), .ret place (some (construction args))] }

/-- The environment of the construction for a flag that is set. -/
def constructionScope : Scope := [("b", .bool true), ("u", person), ("v", .str "n")]

end Sample

namespace Factory

/-- Where every initializer has a value, a construction inside an expression is a record with the
values of the last initializers, and a run that ends with the construction gives a record
with those of the first ones, or fails for want of a property that is filled in. -/
theorem construction_first_last {c : Compilation} {source target : Descriptor}
    {declared : DeclaredAt} {method : Method} {f : Factory}
    (hf : Factory.ofMethod c source target declared method = .ok f) {m : Mapping}
    (ht : c.descriptor? m.target = some target) (hn : (m.lower c f).notes = [])
    (hargs : target.InitializedBy method.finalArguments) (bound : List String) (span : Span)
    (type : Source.TypeExpr)
    (hnested : ((m.lowering c f).expr bound
      (.construct span type method.finalArguments)).notes = [])
    {scope : Scope} {run : Value → Eval Value} (hrun : m.Runs c f scope run) {s : Value}
    {env : Scope} (henv : m.environment c f scope s = .ok env)
    (hvalues : ∀ a ∈ method.finalArguments, ∃ v, a.value.eval (m.types c) env = .ok v) :
    let args := method.finalArguments
    let names := Bindings.names (Source.initializers args)
    let first := Source.firstValue (m.types c) env args
    let last := Source.lastValue (m.types c) env args
    ∃ nested, ((m.lowering c f).expr bound (.construct span type args)).value.eval env =
        .ok nested ∧
      (∀ name ∈ names, nested.member name = last name) ∧
      (∀ r, run s = .ok r → (∀ name ∈ names, r.member name = first name) ∧
        ((∀ name ∈ names, r.member name = nested.member name) ↔
          ∀ name ∈ names, first name = last name) ∧
        (names.Nodup → ∀ name ∈ names, r.member name = nested.member name)) ∧
      ∀ e, run s = .error e → ∃ name ∈ m.targetProperties c, name ∉ names ∧ ∃ p,
        m.properties.find? (·.target.name == name) = some p ∧
        ((Tree.param f.sourceParam).member p.source.name).eval env = .error e := by
  intro args names first last
  have describes := Factory.ofMethod_describes hf
  have built := hrun.eq_targetRecord describes hn hargs henv
  have lowered := (m.lowering c f).expr_eval bound env _ hnested
  obtain ⟨nested, heval, hlast⟩ := Source.Expr.construct_eval hvalues span type
  refine ⟨nested, lowered.trans heval, hlast, fun r hr => ?record, fun e he => ?failure⟩
  case record =>
    have members (name) (hname : name ∈ names) : r.member name = first name :=
      Mapping.targetRecord_member (built.symm.trans hr)
        (Mapping.mem_targetProperties ht hargs hname) (Mapping.fieldValue?_of_initializer hname)
    refine ⟨members, ?_, fun distinct name hname => ?_⟩
    · exact forall₂_congr fun name hname => by rw [members name hname, hlast name hname]
    · rw [members name hname, hlast name hname]
      exact Source.firstValue_eq_lastValue distinct ..
  case failure =>
    obtain ⟨name, hname, hentry⟩ := Mapping.targetRecord_error (built.symm.trans he)
    -- what is initialized has a value, so what fails is filled in
    have absent : name ∉ names := by
      intro hmem
      obtain ⟨v, hv⟩ := Source.exists_firstValue hvalues hmem
      rw [Mapping.fieldValue?_of_initializer hmem, hv] at hentry
      cases hentry
    have nothing : m.givenFirst c args env name = none := congrArg (Option.map _)
      (Option.not_isSome_iff_eq_none.1 fun h => absent ((Bindings.get?_isSome ..).1 h))
    rw [Mapping.fieldValue?, nothing, Option.none_or] at hentry
    obtain ⟨p, hp, hfilled⟩ := Option.map_eq_some_iff.1 hentry
    exact ⟨name, hname, absent, p, hp, hfilled⟩

theorem construction_first_last_distinct :
    let method := Sample.constructing [("name", Sample.name "v"), ("age", Sample.text "a")]
    let r := Value.record "app::Target" [("name", .str "n"), ("age", .str "a")]
    ∃ f stages, Factory.ofMethod Sample.compilation Sample.user Sample.target ⟨0, Sample.place⟩
        method = .ok f ∧
      (Sample.mapping.factoryPlan Sample.compilation f).bind [some (.bool true)] = .ok stages ∧
      ∃ nested, ((Sample.mapping.lowering Sample.compilation f).expr ["b", "u", "v"]
          (Sample.construction [("name", Sample.name "v"), ("age", Sample.text "a")])).value.eval
            Sample.constructionScope = .ok nested ∧
        applyStages stages Sample.person = .ok r ∧
        ∀ name ∈ ["name", "age"], r.member name = nested.member name := by
  intro method r
  have initialized : Sample.target.InitializedBy method.finalArguments :=
    List.forall_mem_cons.2 ⟨⟨_, _, rfl, rfl⟩, List.forall_mem_cons.2 ⟨⟨_, _, rfl, rfl⟩, nofun⟩⟩
  have values : ∀ a ∈ method.finalArguments, ∃ v,
      a.value.eval (Sample.mapping.types Sample.compilation) Sample.constructionScope = .ok v :=
    List.forall_mem_cons.2 ⟨⟨_, rfl⟩, List.forall_mem_cons.2 ⟨⟨_, rfl⟩, nofun⟩⟩
  obtain ⟨nested, hnested, -, hrun, -⟩ := construction_first_last
    (rfl : Factory.ofMethod Sample.compilation Sample.user Sample.target ⟨0, Sample.place⟩
      method = .ok _) (m := Sample.mapping) rfl rfl initialized ["b", "u", "v"] Sample.place
    (.named Sample.place ["app", "Target"]) rfl (.staged [some (.bool true)] rfl rfl)
    (s := Sample.person) rfl values
  exact ⟨_, _, rfl, rfl, nested, hnested, rfl, (hrun r rfl).2.2 (by decide)⟩

/-- A construction that names a property twice has the first value as a result, and the last one
inside an expression. -/
theorem construction_differs :
    let args := [("name", Sample.text "a"), ("name", Sample.text "b")]
    ∃ f scope stages, Factory.ofMethod Sample.compilation Sample.user Sample.target
        ⟨0, Sample.place⟩ (Sample.constructing args) = .ok f ∧
      (Sample.mapping.lower Sample.compilation f).notes = [] ∧
      (Sample.mapping.factoryPlan Sample.compilation f).boundScope [some (.bool true)] =
        .ok scope ∧
      Sample.mapping.environment Sample.compilation f scope Sample.person =
        .ok Sample.constructionScope ∧
      (Sample.mapping.factoryPlan Sample.compilation f).bind [some (.bool true)] = .ok stages ∧
      applyStages stages Sample.person = .ok (Sample.built (.str "a")) ∧
      ((Sample.mapping.lowering Sample.compilation f).expr ["b", "u", "v"]
        (Sample.construction args)).notes = [] ∧
      ((Sample.mapping.lowering Sample.compilation f).expr ["b", "u", "v"]
        (Sample.construction args)).value.eval Sample.constructionScope =
          .ok (.record "app::Target" [("name", .str "b")]) :=
  ⟨_, _, _, rfl, rfl, rfl, rfl, rfl, rfl, rfl, rfl⟩

end Factory
end StagedMapping
