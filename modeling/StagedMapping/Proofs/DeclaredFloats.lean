import StagedMapping.Proofs.CarriedSource

/-! Names that are declared as floats. What the binding of arguments leaves in a scope is what
its last writes give (`Factory.boundScope_writes`): an argument, a default or the initializer
of a `let` is converted to the type written for its name, and an assignment is not. So a name
holds no integer that is declared as a float wherever it is declared, and that nothing
assigns; and a variable holds what its initializer gives (`Factory.floats_held`). -/
namespace StagedMapping

/-! ### Writes -/

/-- A value that is given to a name, and the type that is written for it. -/
structure Write where
  name : String
  type : Option String
  value : Value

namespace Write

/-- What is bound to the name: a written type may make a float of an integer. -/
def stored (w : Write) : Value :=
  match w.type with
  | some type => w.value.coerce type
  | none => w.value

/-- An integer is stored exactly if one is given and no float is written for it. -/
theorem stored_eq_int {w : Write} {k : Int64} :
    w.stored = .int k ↔ w.value = .int k ∧ w.type ≠ some "float" := by
  obtain ⟨name, type, value⟩ := w
  cases type with
  | none => simp [stored]
  | some type =>
    cases value with
    | int i =>
      by_cases h : type = "float" <;> simp [stored, Value.coerce, h]
    | _ => simp [stored, Value.coerce]

/-- A scope after some writes. -/
def apply (scope : Scope) (ws : List Write) : Scope :=
  Bindings.setAll scope (ws.map fun w => (w.name, w.stored))

theorem apply_append (scope : Scope) (a b : List Write) :
    apply scope (a ++ b) = apply (apply scope a) b := by
  rw [apply, List.map_append]
  exact List.foldl_append

/-- The last write of a name. -/
def last? (ws : List Write) (n : String) : Option Write := ws.reverse.find? (·.name == n)

theorem get?_apply (scope : Scope) (ws : List Write) (n : String) :
    Bindings.get? (apply scope ws) n = ((last? ws n).map stored).or (Bindings.get? scope n) := by
  rw [apply, Bindings.get?_setAll, ← List.map_reverse, Bindings.get?, List.find?_map,
    Option.map_map]
  rfl

theorem last?_mem {ws : List Write} {n : String} {w : Write} (h : last? ws n = some w) :
    w ∈ ws ∧ w.name = n :=
  ⟨List.mem_reverse.1 (List.mem_of_find?_eq_some h), by simpa using List.find?_some h⟩

variable {ε : Type} {scope : Scope} {targets : List (String × Option String)}

/-- A run that leaves what some writes leave, and fails where they do. -/
def Leaves (scope : Scope) (writes : Except ε (List Write)) (after : Except ε Scope) : Prop :=
  after = writes.map (apply scope)

/-- Writes of some names, with the types that are written for them. -/
def Within (targets : List (String × Option String)) (writes : Except ε (List Write)) : Prop :=
  ∀ ws, writes = .ok ws → ∀ w ∈ ws, (w.name, w.type) ∈ targets

theorem Leaves.append {first : Except ε (List Write)} {more : List Write → Except ε (List Write)}
    {between : Except ε Scope} {rest : Scope → Except ε Scope} (h : Leaves scope first between)
    (hr : ∀ ws, Leaves (apply scope ws) (more ws) (rest (apply scope ws))) :
    Leaves scope (do let ws ← first; return ws ++ (← more ws)) (between >>= rest) := by
  cases h
  cases first with
  | error e => rfl
  | ok ws =>
    show rest (apply scope ws) = _
    rw [hr ws]
    cases hm : more ws with
    | error e => simp [Except.map, Bind.bind, Except.bind, hm]
    | ok others => simp [Except.map, Bind.bind, Except.bind, pure, Except.pure, hm, apply_append]

theorem Within.append {first : Except ε (List Write)}
    {more : List Write → Except ε (List Write)} (h : Within targets first)
    (hr : ∀ ws, Within targets (more ws)) :
    Within targets (do let ws ← first; return ws ++ (← more ws)) := by
  intro ws hws w hw
  obtain ⟨a, ha, hws⟩ := StagedMapping.bind_eq_ok.1 hws
  obtain ⟨b, hb, hws⟩ := StagedMapping.bind_eq_ok.1 hws
  cases hws
  exact (List.mem_append.1 hw).elim (h a ha w) (hr a b hb w)

theorem Within.mono {more : List (String × Option String)} {writes : Except ε (List Write)}
    (h : Within targets writes) (hm : ∀ t ∈ targets, t ∈ more) : Within more writes :=
  fun ws hws w hw => hm _ (h ws hws w hw)

theorem Within.nil : Within targets (.ok [] : Except ε (List Write)) := by
  intro ws hws w hw
  cases hws
  cases hw

theorem Leaves.lift {writes : Eval (List Write)} {after : Eval Scope}
    (h : Leaves scope writes after) : Leaves scope writes.lift after.lift := by
  cases h
  cases writes <;> rfl

theorem Within.lift {writes : Eval (List Write)} (h : Within targets writes) :
    Within targets writes.lift :=
  fun ws hws => h ws (Eval.lift_eq_ok.1 hws)

/-- A condition chooses between two runs. -/
theorem Leaves.choice {yes no : Eval (List Write)} {ran passed : Eval Scope}
    (condition : Eval Value) (hy : Leaves scope yes ran) (hn : Leaves scope no passed) :
    Leaves scope
      (condition >>= fun
        | .bool true => yes
        | .bool false => no
        | v => v.mismatch "if condition" "bool")
      (condition >>= fun
        | .bool true => ran
        | .bool false => passed
        | v => v.mismatch "if condition" "bool") := by
  cases condition with
  | error e => rfl
  | ok v =>
    cases v with
    | bool b => cases b with
      | true => exact hy
      | false => exact hn
    | _ => rfl

theorem Within.choice {yes no : Eval (List Write)} (condition : Eval Value)
    (hy : Within targets yes) (hn : Within targets no) :
    Within targets (condition >>= fun
      | .bool true => yes
      | .bool false => no
      | v => v.mismatch "if condition" "bool") := by
  intro ws hws
  obtain ⟨v, -, hws⟩ := StagedMapping.bind_eq_ok.1 hws
  cases v with
  | bool b => cases b with
    | true => exact hy ws hws
    | false => exact hn ws hws
  | _ => cases hws

end Write

/-! ### Writes of bodies -/

namespace Source
open Write
variable (types : TypeExpr → TypeRef)

def Binding.writes (scope : Scope) (b : Binding) : Eval (List Write) := do
  return [⟨b.name.text, b.type.map fun t => (types t).text, ← b.initial types scope⟩]

def bindingsWrites (scope : Scope) : List Binding → Eval (List Write)
  | [] => .ok []
  | b :: rest => do
    let first ← b.writes types scope
    return first ++ (← bindingsWrites (Write.apply scope first) rest)

mutual

/-- What a statement writes, in order. A loop or a return inside a body fails. -/
def Statement.writes (scope : Scope) : Statement → Eval (List Write)
  | .letIn _ bindings => bindingsWrites types scope bindings
  | .assign _ target value => do
    let v ← value.eval types scope
    let _ ← Residual.change scope target.text v
    return [⟨target.text, none, v⟩]
  | .expr _ value => do
    let _ ← value.eval types scope
    return []
  | .branch _ condition body others last => do
    match ← condition.eval types scope with
    | .bool true => blockWrites scope body
    | .bool false => othersWrites scope (otherwiseWrites scope last) others
    | v => v.mismatch "if condition" "bool"
  | .loop .. => .error (.unbound "loop")
  | .ret .. => .error (.unbound "return")
  | .pass _ => .ok []

def blockWrites (scope : Scope) : List Statement → Eval (List Write)
  | [] => .ok []
  | s :: rest => do
    let first ← s.writes scope
    return first ++ (← blockWrites (Write.apply scope first) rest)

def othersWrites (scope : Scope) (last : Eval (List Write)) :
    List (Expr × List Statement) → Eval (List Write)
  | [] => last
  | (condition, body) :: rest => do
    match ← condition.eval types scope with
    | .bool true => blockWrites scope body
    | .bool false => othersWrites scope last rest
    | v => v.mismatch "if condition" "bool"

def otherwiseWrites (scope : Scope) : Option (List Statement) → Eval (List Write)
  | none => .ok []
  | some body => blockWrites scope body

end

/-! ### A run is its writes -/

theorem Binding.exec_leaves (scope : Scope) (b : Binding) :
    Leaves scope (b.writes types scope) (b.exec types scope) := by
  rw [Leaves, Binding.exec, Binding.writes]
  cases b.initial types scope with
  | error e => rfl
  | ok v =>
    obtain ⟨name, type, value⟩ := b
    cases type <;> rfl

theorem bindings_leave (scope : Scope) (bs : List Binding) :
    Leaves scope (bindingsWrites types scope bs) (bs.foldlM (Binding.exec types) scope) := by
  induction bs generalizing scope with
  | nil => rfl
  | cons b rest ih =>
    rw [List.foldlM_cons]
    exact (b.exec_leaves types scope).append fun ws => ih (Write.apply scope ws)

theorem assignment_leaves (scope : Scope) (span : Span) (target : Ident) (value : Expr) :
    Leaves scope ((Statement.assign span target value).writes types scope)
      ((Statement.assign span target value).exec types scope) := by
  rw [Leaves, Statement.writes, Statement.exec]
  cases value.eval types scope with
  | error e => rfl
  | ok v =>
    show Residual.change scope target.text v = Except.map _ (Residual.change _ _ v >>= _)
    rw [Residual.change]
    cases Bindings.get? scope target.text <;> rfl

mutual

/-- A statement leaves what its writes leave. -/
theorem Statement.exec_leaves (scope : Scope) : (s : Statement) →
    Leaves scope (s.writes types scope) (s.exec types scope)
  | .letIn _ bs => bindings_leave types scope bs
  | .assign span target value => assignment_leaves types scope span target value
  | .expr _ value => by
    rw [Leaves, Statement.writes, Statement.exec]
    cases value.eval types scope <;> rfl
  | .branch _ condition body others last => .choice (condition.eval types scope)
    (blockExec_leaves scope body)
    (othersExec_leave scope (otherwiseExec_leaves scope last) others)
  | .loop .. => rfl
  | .ret .. => rfl
  | .pass _ => rfl

theorem blockExec_leaves (scope : Scope) : (body : List Statement) →
    Leaves scope (blockWrites types scope body) (blockExec types scope body)
  | [] => rfl
  | s :: rest =>
    (Statement.exec_leaves scope s).append fun ws => blockExec_leaves (Write.apply scope ws) rest

theorem othersExec_leave (scope : Scope) {writes : Eval (List Write)} {after : Eval Scope}
    (hl : Leaves scope writes after) : (others : List (Expr × List Statement)) →
    Leaves scope (othersWrites types scope writes others) (othersExec types scope after others)
  | [] => hl
  | (condition, body) :: rest => .choice (condition.eval types scope)
    (blockExec_leaves scope body) (othersExec_leave scope hl rest)

theorem otherwiseExec_leaves (scope : Scope) : (last : Option (List Statement)) →
    Leaves scope (otherwiseWrites types scope last) (otherwiseExec types scope last)
  | none => rfl
  | some body => blockExec_leaves scope body

end

/-! ### What may be written -/

/-- The name of a local, with the type that is written for it. -/
def Binding.target (b : Binding) : String × Option String :=
  (b.name.text, b.type.map fun t => (types t).text)

mutual

/-- The names that a statement may write, at whatever depth, with their written types. -/
def Statement.targets : Statement → List (String × Option String)
  | .letIn _ bindings => bindings.map (Binding.target types)
  | .assign _ target _ => [(target.text, none)]
  | .branch _ _ body others last =>
    blockTargets body ++ othersTargets others ++ otherwiseTargets last
  | .expr .. | .loop .. | .ret .. | .pass .. => []

def blockTargets : List Statement → List (String × Option String)
  | [] => []
  | s :: rest => s.targets ++ blockTargets rest

def othersTargets : List (Expr × List Statement) → List (String × Option String)
  | [] => []
  | (_, body) :: rest => blockTargets body ++ othersTargets rest

def otherwiseTargets : Option (List Statement) → List (String × Option String)
  | none => []
  | some body => blockTargets body

end

theorem bindings_within (scope : Scope) (bs : List Binding) :
    Within (bs.map (Binding.target types)) (bindingsWrites types scope bs) := by
  induction bs generalizing scope with
  | nil => exact .nil
  | cons b rest ih =>
    refine Within.append (fun ws hws w hw => ?_) fun ws =>
      (ih (Write.apply scope ws)).mono fun t ht => List.mem_cons_of_mem _ ht
    obtain ⟨v, -, hws⟩ := bind_eq_ok.1 hws
    cases hws
    cases List.mem_singleton.1 hw
    exact List.mem_cons_self

mutual

/-- A statement writes what it may write. -/
theorem Statement.writes_within (scope : Scope) : (s : Statement) →
    Within (s.targets types) (s.writes types scope)
  | .letIn _ bs => bindings_within types scope bs
  | .assign _ target value => by
    intro ws hws w hw
    obtain ⟨v, -, hws⟩ := bind_eq_ok.1 hws
    obtain ⟨after, -, hws⟩ := bind_eq_ok.1 hws
    cases hws
    cases List.mem_singleton.1 hw
    exact List.mem_singleton.2 rfl
  | .expr _ value => by
    intro ws hws w hw
    obtain ⟨v, -, hws⟩ := bind_eq_ok.1 hws
    cases hws
    cases hw
  | .branch _ condition body others last => .choice (condition.eval types scope)
    ((blockWrites_within scope body).mono fun _ ht => by simp [Statement.targets, ht])
    ((othersWrites_within scope (otherwiseWrites_within scope last) others).mono fun _ ht => by
      rw [Statement.targets, List.append_assoc]
      exact List.mem_append_right _ ht)
  | .loop .. => nofun
  | .ret .. => nofun
  | .pass _ => .nil

theorem blockWrites_within (scope : Scope) : (body : List Statement) →
    Within (blockTargets types body) (blockWrites types scope body)
  | [] => .nil
  | s :: rest => Within.append
    ((Statement.writes_within scope s).mono fun _ ht => List.mem_append_left _ ht)
    fun ws => (blockWrites_within (Write.apply scope ws) rest).mono
      fun _ ht => List.mem_append_right _ ht

theorem othersWrites_within (scope : Scope) {last : Eval (List Write)}
    {targets : List (String × Option String)} (hl : Within targets last) :
    (others : List (Expr × List Statement)) →
    Within (othersTargets types others ++ targets) (othersWrites types scope last others)
  | [] => hl
  | (condition, body) :: rest => .choice (condition.eval types scope)
    ((blockWrites_within scope body).mono fun _ ht => by simp [othersTargets, ht])
    ((othersWrites_within scope hl rest).mono fun _ ht => by
      rw [othersTargets, List.append_assoc]
      exact List.mem_append_right _ ht)

theorem otherwiseWrites_within (scope : Scope) : (last : Option (List Statement)) →
    Within (otherwiseTargets types last) (otherwiseWrites types scope last)
  | none => .nil
  | some body => blockWrites_within scope body

end

end Source

/-! ### Writes of a binding -/

namespace Method
open Write
variable (types : Source.TypeExpr → TypeRef) (declaration : String)

def argumentWrites (scope : Scope) (p : Parameter) (passed : Option Value) :
    Except MapError (List Write) := do
  return [⟨p.name, some p.type.text, ← argumentWritten types declaration scope p passed⟩]

def parameterWrites (scope : Scope) : List Parameter → Args → Except MapError (List Write)
  | [], _ => .ok []
  | p :: rest, args => do
    let first ← argumentWrites types declaration scope p args.head?.join
    return first ++ (← parameterWrites (Write.apply scope first) rest args.tail)

theorem bindWritten_leaves (scope : Scope) (ps : List Parameter) (args : Args) :
    Leaves scope (parameterWrites types declaration scope ps args)
      (bindWritten types declaration scope ps args) := by
  induction ps generalizing scope args with
  | nil => rfl
  | cons p rest ih =>
    have hfirst : Leaves scope (argumentWrites types declaration scope p args.head?.join)
        (argumentWritten types declaration scope p args.head?.join >>= fun v =>
          .ok (Bindings.set scope p.name (v.coerce p.type.text))) := by
      rw [Leaves, argumentWrites]
      cases argumentWritten types declaration scope p args.head?.join <;> rfl
    have hall : Leaves scope (parameterWrites types declaration scope (p :: rest) args)
        ((argumentWritten types declaration scope p args.head?.join >>= fun v =>
            .ok (Bindings.set scope p.name (v.coerce p.type.text))) >>= fun after =>
          bindWritten types declaration after rest args.tail) :=
      hfirst.append fun ws => ih (Write.apply scope ws) args.tail
    rwa [bind_assoc] at hall

theorem parameterWrites_within (scope : Scope) (ps : List Parameter) (args : Args) :
    Within (ps.map fun p => (p.name, some p.type.text))
      (parameterWrites types declaration scope ps args) := by
  induction ps generalizing scope args with
  | nil => exact .nil
  | cons p rest ih =>
    refine Within.append (fun ws hws w hw => ?_) fun ws =>
      (ih (Write.apply scope ws) args.tail).mono fun t ht => List.mem_cons_of_mem _ ht
    obtain ⟨v, -, hws⟩ := bind_eq_ok.1 hws
    cases hws
    cases List.mem_singleton.1 hw
    exact List.mem_cons_self

end Method

namespace Factory
open Write
variable (f : Factory) (types : Source.TypeExpr → TypeRef)

/-- What a binding of arguments writes: the parameters, then the residual statements. -/
def writes (args : Args) : Except MapError (List Write) := do
  let first ← Method.parameterWrites types f.declaration [] f.parameters args
  return first ++ (← (Source.blockWrites types (Write.apply [] first) f.residuals).lift)

/-- The names that a binding may write, with their written types. -/
def targets : List (String × Option String) :=
  (f.parameters.map fun p => (p.name, some p.type.text)) ++ Source.blockTargets types f.residuals

/-- A name is declared as a float wherever it is declared, and is not assigned. -/
def OnlyFloat (n : String) : Prop := ∀ t ∈ f.targets types, t.1 = n → t.2 = some "float"

theorem writes_within (args : Args) : Within (f.targets types) (f.writes types args) :=
  Within.append ((Method.parameterWrites_within types _ _ _ args).mono
      fun _ ht => List.mem_append_left _ ht)
    fun ws => (Source.blockWrites_within types (Write.apply [] ws) f.residuals).lift.mono
      fun _ ht => List.mem_append_right _ ht

/-- The scope of a binding is what its writes leave. -/
theorem boundScope_writes {m : Mapping} {c : Compilation} {f : Factory}
    (hn : (m.lower c f).notes = []) {args : Args} {scope : Scope}
    (h : (m.factoryPlan c f).boundScope args = .ok scope) :
    ∃ ws, f.writes (m.types c) args = .ok ws ∧ Write.apply [] ws = scope := by
  have hleaves : Leaves [] (f.writes (m.types c) args)
      (Method.bindWritten (m.types c) f.declaration [] f.parameters args >>= fun after =>
        (Source.blockExec (m.types c) after f.residuals).lift) :=
    (Method.bindWritten_leaves _ _ [] f.parameters args).append fun ws =>
      (Source.blockExec_leaves _ (Write.apply [] ws) f.residuals).lift
  rw [Mapping.boundScope_eq_written hn] at h
  split at h
  · cases h
  · exact map_eq_ok.1 (hleaves.symm.trans h)

/-! ### What records hold -/

/-- What a record holds for a name whose last write counts: no integer if the name is a float
wherever it is declared, and else one exactly if the last write gives it and no float is
written for it. -/
structure HoldsWritten (ws : List Write) (r : Value) (n : String) : Prop where
  float : f.OnlyFloat types n → ∀ k, r.member n ≠ .ok (.int k)
  int : ∀ k, r.member n = .ok (.int k) ↔
    ∃ w, Write.last? ws n = some w ∧ w.value = .int k ∧ w.type ≠ some "float"

variable {f types}

theorem holdsWritten_of_get? {args : Args} {ws : List Write} (hws : f.writes types args = .ok ws)
    {n : String} {v : Value} (hv : Bindings.get? (Write.apply [] ws) n = some v) {r : Value}
    (hr : r.member n = .ok v) : f.HoldsWritten types ws r n := by
  rw [get?_apply, Bindings.get?_nil, Option.or_none] at hv
  obtain ⟨w, hw, rfl⟩ := Option.map_eq_some_iff.1 hv
  have hint (k : Int64) : r.member n = .ok (.int k) ↔
      ∃ w, Write.last? ws n = some w ∧ w.value = .int k ∧ w.type ≠ some "float" := by
    rw [hr, hw, Except.ok.injEq, stored_eq_int]
    simp
  refine ⟨fun hfloat k hk => ?_, hint⟩
  obtain ⟨x, hx, -, hne⟩ := (hint k).1 hk
  obtain ⟨hmem, hname⟩ := last?_mem hx
  exact hne (hfloat _ (f.writes_within types args ws hws x hmem) hname)

/-- The records of the stages hold what was written, converted as the type says that is written
for the name: a name that is only a float holds no integer, except under the name of a variable,
which holds what its initializer gives. -/
theorem floats_held {c : Compilation} {source target : Descriptor} {declared : DeclaredAt}
    {method : Method} {f : Factory}
    (hf : Factory.ofMethod c source target declared method = .ok f) (m : Mapping)
    (hn : (m.lower c f).notes = []) {args : Args} {stages : List Lambda}
    (hb : (m.factoryPlan c f).bind args = .ok stages) :
    ∃ ws, f.writes (m.types c) args = .ok ws ∧ ∀ s,
      (∃ r, applyStages (stages.take 1) s = .ok r ∧
        ∀ n ∈ (m.fields c f).map (·.1), n ≠ f.sourceParam → f.HoldsWritten (m.types c) ws r n) ∧
      (f.vars ≠ [] → ∀ r, applyStages (stages.take 2) s = .ok r →
        (∀ n ∈ (m.fields c f).map (·.1), n ≠ f.sourceParam → n ∉ f.vars.map (·.name) →
          f.HoldsWritten (m.types c) ws r n) ∧
        ∀ n v, f.vars.reverse.find? (·.name == n) = some v → ∃ w,
          v.value.eval (m.types c) (Bindings.set (Write.apply [] ws) f.sourceParam s) = .ok w ∧
          r.member n = .ok w) := by
  obtain ⟨scope, hscope, rfl⟩ := FactoryPlan.bind_eq_ok.1 hb
  have hs := (m.boundScope_binds c (Factory.ofMethod_describes hf).scoped args).after scope hscope
  obtain ⟨ws, hws, rfl⟩ := boundScope_writes hn hscope
  refine ⟨ws, hws, fun s => ⟨?first, fun hvars r hr => ?second⟩⟩
  case first =>
    obtain ⟨r, hr, hholds⟩ := m.firstRecord c f hs s
    refine ⟨r, hr, fun n hfield hne => ?_⟩
    obtain ⟨v, hv, hmember⟩ := hholds n hfield
    rw [Bindings.get?_set_other _ s (Ne.symm hne)] at hv
    exact holdsWritten_of_get? hws hv hmember
  case second =>
    obtain ⟨values, hvalues, hholds⟩ := m.secondRecord c f hs hvars hr
    refine ⟨fun n hfield hne hfree => ?_, fun n v hv => ?_⟩
    · obtain ⟨v, hv, hmember⟩ := hholds n (by
        rw [Mapping.allFields_names]
        exact List.mem_append_left _ hfield)
      rw [Mapping.varValues_other hvalues hfree, Bindings.get?_set_other _ s (Ne.symm hne)] at hv
      exact holdsWritten_of_get? hws hv hmember
    · obtain ⟨w, hw, hget⟩ := Mapping.varValues_last hvalues hn hv
      refine ⟨w, hw, hholds.member ?_ hget⟩
      rw [Mapping.allFields_names]
      refine List.mem_append_right _ (List.mem_map.2 ⟨v, ?_, by simpa using List.find?_some hv⟩)
      exact List.mem_reverse.1 (List.mem_of_find?_eq_some hv)

end Factory

namespace Sample
open Source (TypeExpr)

def whole (n : Int64) : Source.Expr := .literal place (.int n)

/-- A body with a float parameter and a float local, which is the name of the target. -/
def floats (body : List Source.Statement) : Method :=
  let float : TypeExpr := .named place ["float"]
  { method "u" "b" (.letIn place [⟨⟨"x", place⟩, some float, some (whole 2)⟩] :: body)
      (.binary place (name "x") .div (name "b")) with
    parameters := [⟨"u", user.toRef, none, place⟩, ⟨"b", .builtin .float, none, place⟩] }

/-- An assignment of an integer. -/
def assigned (target : String) : Method :=
  floats [.assign place ⟨target, place⟩ (whole 3)]

/-- One of the records of a method holds an integer in a field whose type is float. -/
def StoresInt (method : Method) (argument : Value) (stage : Nat) (n : String) : Prop :=
  ∃ f stages r, Factory.ofMethod compilation user target ⟨0, place⟩ method = .ok f ∧
    (mapping.lower compilation f).notes = [] ∧
    (mapping.factoryPlan compilation f).bind [some argument] = .ok stages ∧
    Bindings.get? (mapping.allFields compilation f) n = some "float" ∧
    applyStages (stages.take stage) person = .ok r ∧ r.member n = .ok (.int 3)

end Sample

namespace Factory

theorem floats_held_sample :
    ∃ f stages, Factory.ofMethod Sample.compilation Sample.user Sample.target ⟨0, Sample.place⟩
        (Sample.floats []) = .ok f ∧
      (Sample.mapping.factoryPlan Sample.compilation f).bind [some (.int 1)] = .ok stages ∧
      ∀ s, ∃ r, applyStages (stages.take 1) s = .ok r ∧
        ∀ n ∈ ["x", "b"], ∀ k, r.member n ≠ .ok (.int k) := by
  refine ⟨_, _, rfl, rfl, fun s => ?_⟩
  obtain ⟨ws, -, h⟩ := floats_held (rfl : Factory.ofMethod Sample.compilation Sample.user
    Sample.target ⟨0, Sample.place⟩ (Sample.floats []) = .ok _) Sample.mapping rfl
    (rfl : FactoryPlan.bind _ [some (.int 1)] = .ok _)
  obtain ⟨r, hr, hheld⟩ := (h s).1
  refine ⟨r, hr, fun n hn => (hheld n ?field ?other).float ?only⟩
  case field => revert n; decide
  case other => revert n; decide
  case only => revert n; unfold OnlyFloat; decide

/-- Bodies are accepted that leave an integer for a name with the type float: they assign it to
a local or a parameter, or it is the value of a variable. -/
theorem floats_not_held :
    Sample.StoresInt (Sample.assigned "x") (.int 1) 1 "x" ∧
      Sample.StoresInt (Sample.assigned "b") (.int 1) 1 "b" ∧
      Sample.StoresInt Sample.floated (.bool true) 2 "v" :=
  ⟨⟨_, _, _, rfl, rfl, rfl, rfl, rfl, rfl⟩, ⟨_, _, _, rfl, rfl, rfl, rfl, rfl, rfl⟩,
    ⟨_, _, _, rfl, rfl, rfl, rfl, rfl, rfl⟩⟩

end Factory
end StagedMapping
