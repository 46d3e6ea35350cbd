import StagedMapping.Analysis

/-! What an accepted body is. A body without a problem is taken up step by step, so every
step was clear of the ones before it (`Progress.Clear`), and what the analysis knows at the
end is a function of the steps alone (`Progress.Adds`): which of them are variables, which
are residuals, what was declared, and what the variables read. A factory describes the body
that it was made of in these terms (`Factory.Describes`). -/
namespace StagedMapping
open Source (Ident Statement Binding)

/-! ### What a step reads and changes -/

namespace Source

mutual

/-- The names that a statement declares, also inside branches and loops. -/
def Statement.declared : Statement → List String
  | .letIn _ bindings => bindings.map (·.name.text)
  | .branch _ _ body others otherwise =>
    blockDeclared body ++ othersDeclared others ++ otherwiseDeclared otherwise
  | .loop _ _ body => blockDeclared body
  | _ => []

def blockDeclared : List Statement → List String
  | [] => []
  | s :: rest => s.declared ++ blockDeclared rest

def othersDeclared : List (Expr × List Statement) → List String
  | [] => []
  | (_, body) :: rest => blockDeclared body ++ othersDeclared rest

def otherwiseDeclared : Option (List Statement) → List String
  | none => []
  | some body => blockDeclared body

end

mutual

/-- The target of an assignment is among the reads of its statement. -/
theorem Statement.assigned_reads : (s : Statement) → ∀ r ∈ s.assigned, r ∈ s.reads
  | .assign _ target value, r, hr => by
    cases List.mem_singleton.1 hr
    exact List.mem_cons_self
  | .branch _ condition body others last, r, hr => by
    simp only [Statement.assigned, Statement.reads, List.mem_append] at hr ⊢
    rcases hr with (hr | hr) | hr
    · exact .inl (.inl (.inr (blockAssigned_reads body r hr)))
    · exact .inl (.inr (othersAssigned_reads others r hr))
    · exact .inr (otherwiseAssigned_reads last r hr)
  | .loop _ condition body, r, hr => List.mem_append_right _ (blockAssigned_reads body r hr)

theorem blockAssigned_reads : (body : List Statement) →
    ∀ r ∈ blockAssigned body, r ∈ blockReads body
  | s :: rest, r, hr => by
    rcases List.mem_append.1 hr with hr | hr
    · exact List.mem_append_left _ (s.assigned_reads r hr)
    · exact List.mem_append_right _ (blockAssigned_reads rest r hr)

theorem othersAssigned_reads : (others : List (Expr × List Statement)) →
    ∀ r ∈ othersAssigned others, r ∈ othersReads others
  | (condition, body) :: rest, r, hr => by
    rcases List.mem_append.1 hr with hr | hr
    · exact List.mem_append_left _ (List.mem_append_right _ (blockAssigned_reads body r hr))
    · exact List.mem_append_right _ (othersAssigned_reads rest r hr)

theorem otherwiseAssigned_reads : (last : Option (List Statement)) →
    ∀ r ∈ otherwiseAssigned last, r ∈ otherwiseReads last
  | some body, r, hr => blockAssigned_reads body r hr

end

end Source

namespace Item

/-- What a step reads; the target of an assignment counts. -/
def reads : Item → List Ident
  | bind _ b => Source.optionalReads b.value
  | other s => s.reads

/-- The targets of the assignments in a step. -/
def assigned : Item → List Ident
  | bind .. => []
  | other s => s.assigned

/-- The names that a step declares inside branches. -/
def inner : Item → List String
  | bind .. => []
  | other s => s.declared

/-- The names that a step declares, at whatever depth. -/
def declared (i : Item) : List String := i.declares?.toList ++ i.inner

/-- The names that a step declares or assigns. -/
def changed (i : Item) : List String := i.declared ++ i.assigned.map (·.text)

theorem assigned_reads (i : Item) : ∀ r ∈ i.assigned, r ∈ i.reads := by
  cases i with
  | bind span b => intro r hr; cases hr
  | other s => exact s.assigned_reads

/-- The step is a local whose value reads the source. -/
def isVariable (param : String) : Item → Bool
  | bind _ b => ((Source.optionalReads b.value).map (·.text)).contains param
  | other _ => false

/-- The variable that a step declares, with its value. -/
def asVariable? (param : String) (i : Item) : Option (String × Source.Expr) :=
  match i with
  | bind _ b => if i.isVariable param then b.value.map (b.name.text, ·) else none
  | other _ => none

/-- What a step adds to the names that variables read. -/
def staged (param : String) (i : Item) : List (String × String) :=
  match i with
  | bind _ b =>
    if i.isVariable param then
      (((Source.optionalReads b.value).map (·.text)).filter (· ≠ param)).map (·, b.name.text)
    else []
  | other _ => []

end Item

namespace Progress
variable {f : Frame} {p : Progress}

/-- The progress over the steps of a body. -/
def run (f : Frame) (p : Progress) (items : List Item) : Noted Diagnostic Progress :=
  items.foldlM (step f) p

/-- What a step that is taken up keeps to. -/
structure Clear (f : Frame) (p : Progress) (i : Item) : Prop where
  /-- It reads no variable. -/
  untainted : ∀ r ∈ i.reads, p.isTainted r.text = false
  /-- It reads no local that is still to be declared. -/
  declared : ∀ r ∈ i.reads, p.isEarly f r.text = false
  /-- It does not declare what a variable read. -/
  kept : ∀ n, i.declares? = some n → p.reader? n = none
  /-- It does not assign what a variable read. -/
  unassigned : ∀ r ∈ i.assigned, p.reader? r.text = none
  /-- Only a variable reads the source. -/
  sourceFree : i.isVariable f.sourceParam = false → ∀ r ∈ i.reads, r.text ≠ f.sourceParam
  straight : ∀ s, i = .other s → s.controlFlow? = none

theorem early?_eq_none {reads : List Ident} :
    early? f p reads = none ↔ ∀ r ∈ reads, p.isEarly f r.text = false := by
  simp [early?]

theorem changed?_eq_none {names : List Ident} :
    p.changed? names = none ↔ ∀ n ∈ names, p.reader? n.text = none := by
  simp [changed?]

theorem step_clear {i : Item} (h : (step f p i).notes = []) : Clear f p i := by
  cases i with
  | bind span b =>
    rw [step] at h
    split at h
    case h_1 => simp at h
    case h_2 hfault =>
    rw [bindingFault?] at hfault
    split at hfault
    case h_1 => simp at hfault
    case h_2 htainted =>
    rw [Option.or_eq_none_iff, early?_eq_none, changed?_eq_none] at hfault
    refine ⟨?_, hfault.1, ?_, ?_, ?_, ?_⟩
    · show ∀ r ∈ Source.optionalReads b.value, _
      simpa using htainted
    · intro n hn
      cases hn
      exact hfault.2 b.name (List.mem_singleton.2 rfl)
    · intro r hr
      cases hr
    · intro hv r hr he
      have hmem : f.sourceParam ∈ (Source.optionalReads b.value).map (·.text) :=
        he ▸ List.mem_map_of_mem hr
      rw [Item.isVariable, List.contains_eq_mem] at hv
      simp [hmem] at hv
    · intro s hs
      cases hs
  | other s =>
    rw [step] at h
    split at h
    case h_1 => simp at h
    case h_2 hfault =>
    rw [statementFault?] at hfault
    split at hfault
    case h_1 => split at hfault <;> simp at hfault
    case h_2 hreads =>
    simp only [Option.or_eq_none_iff, early?_eq_none, changed?_eq_none,
      Option.map_eq_none_iff] at hfault
    have hfree : ∀ r ∈ s.reads, r.text ≠ f.sourceParam ∧ p.isTainted r.text = false := by
      simpa using hreads
    refine ⟨fun r hr => (hfree r hr).2, hfault.1.1, ?_, hfault.1.2,
      fun _ r hr => (hfree r hr).1, ?_⟩
    · intro n hn
      cases hn
    · intro t ht
      cases ht
      exact hfault.2

/-- What a step that is taken up adds. -/
structure Adds (f : Frame) (p : Progress) (items : List Item) (q : Progress) : Prop where
  vars : q.vars.map (fun v => (v.name, v.value)) =
    p.vars.map (fun v => (v.name, v.value)) ++ items.filterMap (·.asVariable? f.sourceParam)
  declared : q.declared = p.declared ++ items.filterMap (·.declares?)
  staged : q.staged = p.staged ++ items.flatMap (·.staged f.sourceParam)
  residuals : q.residuals =
    p.residuals ++ (items.filter fun i => !i.isVariable f.sourceParam).map (·.toStatement)
  residualLocals : q.residualLocals.map (·.1) = p.residualLocals.map (·.1) ++
    (items.filter fun i => !i.isVariable f.sourceParam).filterMap (·.declares?)

theorem Adds.refl : Adds f p [] p := by
  constructor <;> simp

theorem Adds.trans {q r : Progress} {a b : List Item} (h : Adds f p a q) (h' : Adds f q b r) :
    Adds f p (a ++ b) r where
  vars := by rw [h'.vars, h.vars, List.filterMap_append, List.append_assoc]
  declared := by rw [h'.declared, h.declared, List.filterMap_append, List.append_assoc]
  staged := by rw [h'.staged, h.staged, List.flatMap_append, List.append_assoc]
  residuals := by
    rw [h'.residuals, h.residuals, List.filter_append, List.map_append, List.append_assoc]
  residualLocals := by
    rw [h'.residualLocals, h.residualLocals, List.filter_append, List.filterMap_append,
      List.append_assoc]

theorem addBinding_variable {span : Span} {b : Binding} {value : Source.Expr}
    (hb : b.value = some value) (h : (Item.bind span b).isVariable f.sourceParam = true) :
    p.addBinding f span b =
      { p with
        types := p.types.bind b.name.text (p.types.ofBinding b)
        declared := p.declared ++ [b.name.text]
        staged := p.staged ++ (Item.bind span b).staged f.sourceParam
        vars := p.vars ++ [⟨b.name.text, p.types.ofBinding b, value, b.name.span⟩] } := by
  have hs := h
  rw [Item.isVariable] at hs
  simp only [addBinding, hb, Item.staged, h, if_true]
  rw [hb] at hs
  rw [if_pos hs]

theorem addBinding_residual {span : Span} {b : Binding}
    (h : (Item.bind span b).isVariable f.sourceParam = false) :
    p.addBinding f span b =
      { p with
        types := p.types.bind b.name.text (p.types.ofBinding b)
        declared := p.declared ++ [b.name.text]
        residuals := p.residuals ++ [.letIn span [b]]
        residualLocals := p.residualLocals ++ [(b.name.text, p.types.ofBinding b)] } := by
  rw [Item.isVariable] at h
  rcases b with ⟨name, type, _ | value⟩
  · rfl
  · simp only [addBinding, h, Bool.false_eq_true, if_false, addResidual]

theorem addBinding_adds (span : Span) (b : Binding) :
    Adds f p [.bind span b] (p.addBinding f span b) := by
  cases hv : (Item.bind span b).isVariable f.sourceParam
  · rw [addBinding_residual hv]
    constructor <;> simp [Item.asVariable?, Item.staged, Item.declares?, Item.toStatement, hv]
  · have hb : ∃ value, b.value = some value := by
      cases hb : b.value with
      | none => simp [Item.isVariable, hb, Source.optionalReads] at hv
      | some value => exact ⟨value, rfl⟩
    obtain ⟨value, hb⟩ := hb
    rw [addBinding_variable hb hv]
    constructor <;> simp [Item.asVariable?, Item.staged, Item.declares?, hb, hv]

theorem step_adds {i : Item} (h : (step f p i).notes = []) : Adds f p [i] (step f p i).value := by
  cases i with
  | bind span b =>
    rw [step] at h ⊢
    split at h
    case h_1 => simp at h
    case h_2 => exact addBinding_adds span b
  | other s =>
    rw [step] at h ⊢
    split at h
    case h_1 => simp at h
    case h_2 =>
      constructor <;> simp [Item.asVariable?, Item.staged, Item.isVariable, Item.declares?,
        Item.toStatement]

theorem run_cons (i : Item) (rest : List Item) :
    run f p (i :: rest) = step f p i >>= fun q => run f q rest := List.foldlM_cons

theorem run_append (a b : List Item) :
    run f p (a ++ b) = run f p a >>= fun q => run f q b := List.foldlM_append

theorem run_adds {items : List Item} (h : (run f p items).notes = []) :
    Adds f p items (run f p items).value := by
  induction items generalizing p with
  | nil => exact Adds.refl
  | cons i rest ih =>
    rw [run_cons, Noted.bind_notes, List.append_eq_nil_iff] at h
    rw [run_cons]
    exact (step_adds h.1).trans (ih h.2)

/-- Every step of a body that is taken up keeps to what was known before it. -/
theorem clear_of_run {pre post : List Item} {i : Item}
    (h : (run f p (pre ++ i :: post)).notes = []) :
    Adds f p pre (run f p pre).value ∧ Clear f (run f p pre).value i := by
  rw [run_append, Noted.bind_notes, List.append_eq_nil_iff, run_cons, Noted.bind_notes,
    List.append_eq_nil_iff] at h
  exact ⟨run_adds h.1, step_clear h.2.1⟩

end Progress

/-! ### Methods -/

namespace Method
variable (m : Method)

/-- The statements of a body before its final construction. -/
def statements : List Statement :=
  match splitFinal (m.body.getD []) with
  | some (before, _) => before
  | none => []

def steps : List Item := m.statements.flatMap Item.ofStatement

/-- The arguments of the final construction of a body. -/
def finalArguments : List Source.Argument :=
  match splitFinal (m.body.getD []) with
  | some (_, _, args) => args
  | none => []

/-- The name of the source. -/
def sourceName : String := (m.parameters.head?.map (·.name)).getD ""

/-- What the analysis of the body does not change. -/
def frame (target : Descriptor) (declared : DeclaredAt) : Frame :=
  ⟨⟨target.key.name, m.name, declared.source⟩, m.sourceName, m.steps.filterMap (·.declares?)⟩

/-- What is known before the first step. -/
def start (c : Compilation) (target : Descriptor) (declared : DeclaredAt) : Progress :=
  { types := ⟨c, declared.source, target.typeParams,
      (m.parameters.map fun p => (p.name, p.type)).reverse⟩
    declared := m.parameters.map (·.name)
    staged := []
    vars := []
    residuals := []
    residualLocals := [] }

end Method

/-- What a factory is of the method that it was made of. -/
structure Factory.Describes (c : Compilation) (target : Descriptor) (declared : DeclaredAt)
    (m : Method) (f : Factory) : Prop where
  method : f.method = m
  nonempty : m.parameters ≠ []
  sourceParam : f.sourceParam = m.sourceName
  parameters : f.parameters = m.parameters.tail
  clear : (Progress.run (m.frame target declared) (m.start c target declared) m.steps).notes = []
  vars : f.vars =
    (Progress.run (m.frame target declared) (m.start c target declared) m.steps).value.vars
  residuals : f.residuals =
    (Progress.run (m.frame target declared) (m.start c target declared) m.steps).value.residuals
  residualLocals : f.residualLocals =
    (Progress.run (m.frame target declared) (m.start c target declared) m.steps).value.residualLocals
  initializers : f.initializers = keptInitializers target m.finalArguments
  once : repeatedFaults (m.frame target declared)
    (Progress.run (m.frame target declared) (m.start c target declared) m.steps).value
    f.initializers = []

theorem sourceParameter_ok {source : Descriptor} {site : Site} {m : Method} {p : Parameter}
    (h : sourceParameter source site m = .ok p) : ∃ rest, m.parameters = p :: rest := by
  rw [sourceParameter] at h
  simp only at h
  split at h
  case h_1 => cases h
  case h_2 q rest hq =>
  split at h
  · cases h
    exact ⟨rest, hq⟩
  · cases h

theorem finalConstruction_ok {c : Compilation} {target : Descriptor} {site : Site} {m : Method}
    {before : List Statement} {args : List Source.Argument}
    (h : finalConstruction c target site m = .ok (before, args)) :
    ∃ type, splitFinal (m.body.getD []) = some (before, type, args) ∧
      target.isTypeOf (c.resolve site.source target.typeParams type).value = true := by
  rw [finalConstruction] at h
  simp only at h
  split at h
  case h_1 => cases h
  case h_2 b type a hb =>
  split at h
  · next hbuilt =>
    cases h
    exact ⟨type, hb, hbuilt⟩
  · cases h

theorem Factory.ofMethod_describes {c : Compilation} {source target : Descriptor}
    {declared : DeclaredAt} {m : Method} {f : Factory}
    (h : Factory.ofMethod c source target declared m = .ok f) :
    f.Describes c target declared m := by
  rw [Factory.ofMethod] at h
  simp only [bind, Except.bind] at h
  split at h
  case h_1 => cases h
  case h_2 param hparam =>
  split at h
  case h_1 => cases h
  case h_2 final hfinal =>
  obtain ⟨before, args⟩ := final
  obtain ⟨rest, hrest⟩ := sourceParameter_ok hparam
  obtain ⟨type, htype, -⟩ := finalConstruction_ok hfinal
  have hname : m.sourceName = param.name := by rw [Method.sourceName, hrest]; rfl
  have hsteps : m.steps = before.flatMap Item.ofStatement := by
    rw [Method.steps, Method.statements, htype]
  have hargs : m.finalArguments = args := by rw [Method.finalArguments, htype]
  have hframe : m.frame target declared = ⟨⟨target.key.name, m.name, declared.source⟩, param.name,
      (before.flatMap Item.ofStatement).filterMap (·.declares?)⟩ := by
    rw [Method.frame, hname, hsteps]
  split at h
  case h_2 => cases h
  case h_1 hfaults =>
  rw [List.append_eq_nil_iff] at hfaults
  cases h
  exact
    { method := rfl
      nonempty := by rw [hrest]; exact List.cons_ne_nil _ _
      sourceParam := hname.symm
      parameters := rfl
      clear := by rw [hframe, hsteps]; exact hfaults.1
      vars := by rw [hframe, hsteps]; rfl
      residuals := by rw [hframe, hsteps]; rfl
      residualLocals := by rw [hframe, hsteps]; rfl
      initializers := by rw [hargs]
      once := by rw [hframe, hsteps]; exact hfaults.2 }

/-- An initializer is of a property of the target, and has the value of an argument. -/
theorem mem_keptInitializers {target : Descriptor} {args : List Source.Argument} {i : Initializer}
    (hi : i ∈ keptInitializers target args) :
    i.target ∈ target.properties ∧ ∃ a ∈ args, i.value = a.value := by
  have step (kept : List Initializer) (a : Source.Argument) :
      ∀ i ∈ addInitializer target kept a,
        i ∈ kept ∨ i.target ∈ target.properties ∧ i.value = a.value := by
    intro i hi
    unfold addInitializer at hi
    split at hi
    · exact .inl hi
    rename_i p hp
    split at hi
    · exact .inl hi
    · refine (List.mem_append.1 hi).imp_right fun hi => ?_
      cases List.mem_singleton.1 hi
      obtain ⟨name, -, hfind⟩ := Option.bind_eq_some_iff.1 hp
      exact ⟨List.mem_of_find?_eq_some hfind, rfl⟩
  have run (kept : List Initializer) : ∀ i ∈ args.foldl (addInitializer target) kept,
      i ∈ kept ∨ i.target ∈ target.properties ∧ ∃ a ∈ args, i.value = a.value := by
    clear hi
    induction args generalizing kept with
    | nil => exact fun i hi => .inl hi
    | cons a rest ih =>
      intro i hi
      rcases ih _ i hi with hi | ⟨htarget, b, hb, hvalue⟩
      · exact (step kept a i hi).imp_right fun h => ⟨h.1, a, List.mem_cons_self, h.2⟩
      · exact .inr ⟨htarget, b, List.mem_cons_of_mem _ hb, hvalue⟩
  exact (run [] i hi).resolve_left List.not_mem_nil

/-! ### A sample

Types and method bodies to show what the analysis takes up: a user with a name and an age is
mapped to a target with the same properties, by a method whose body is given. -/

namespace Sample
open Source (TypeExpr)

def place : Span := ⟨0, 0⟩

def property (type name : String) (of : TypeRef) : Property :=
  ⟨⟨"app", type⟩, name, of, true, true, place⟩

def user : Descriptor :=
  ⟨⟨"app", "User"⟩, [],
    [property "User" "name" (.builtin .str), property "User" "age" (.builtin .int)], [], none⟩

def target : Descriptor :=
  ⟨⟨"app", "Target"⟩, [],
    [property "Target" "name" (.builtin .str), property "Target" "age" (.builtin .int)], [],
    some ⟨0, place⟩⟩

def compilation : Compilation :=
  { files := []
    origins := [("app::Target", .compiled ⟨"Target", "app", [], [], []⟩)]
    types := [("app::Target", target), ("app::User", user)]
    problems := [] }

def name (text : String) : Source.Expr := .ident place text

def text (s : String) : Source.Expr := .literal place (.string s)

/-- A local with a value. -/
def given (name : String) (value : Source.Expr) : Statement :=
  .letIn place [⟨⟨name, place⟩, none, some value⟩]

def field (base member : String) : Source.Expr := .field place (name base) member

/-- A method of a source and a flag, which initializes the name of its target. -/
def method (source flag : String) (body : List Statement) (value : Source.Expr) : Method :=
  { declaring := target.key
    name := "map"
    returns := none
    parameters := [⟨source, user.toRef, none, place⟩, ⟨flag, .builtin .bool, none, place⟩]
    body := some (body ++ [.ret place (some (.construct place (.named place ["app", "Target"])
      [.named ⟨"name", place⟩ value]))])
    span := place }

end Sample
end StagedMapping
