import StagedMapping.Proofs.Footprint
import StagedMapping.Proofs.Outcomes
import StagedMapping.Proofs.StageRecords

/-! Reordering of bodies. In the written order residuals and variables alternate; staged, all
residuals run first, in a scope without the source, and then the variables are evaluated in
the scope that is left, with the source in it. Both orders do the same as long as what a
variable reads is settled before it and what is read at the end was declared last by what
the stages keep (`Reordering.Ordered`). The proof goes along the written order and keeps the
two scopes and the values of the variables so far in step (`Reordering.Tracks`). -/
namespace StagedMapping

/-! ### Runs of steps -/

namespace Item
variable {types : Source.TypeExpr → TypeRef}

def exec (types : Source.TypeExpr → TypeRef) (scope : Scope) (i : Item) : Eval Scope :=
  i.toStatement.exec types scope

theorem exec_bind (span : Span) (b : Source.Binding) (scope : Scope) :
    (Item.bind span b).exec types scope = b.exec types scope := bind_pure _

theorem exec_given (span : Span) {b : Source.Binding} {e : Source.Expr} (hb : b.value = some e)
    (scope : Scope) : (Item.bind span b).exec types scope =
      e.eval types scope >>= fun v => .ok (Bindings.set scope b.name.text (b.coerce types v)) := by
  rw [exec_bind, Source.Binding.exec, Source.Binding.initial, hb]
  rfl

theorem exec_alike {off : List String} {a b : Scope} {i : Item}
    (hr : ∀ r ∈ i.reads, r.text ∉ off)
    (h : ∀ n, n ∉ off → Bindings.get? a n = Bindings.get? b n) :
    Eval.Alike off (i.exec types a) (i.exec types b) := by
  cases i with
  | bind span x =>
    rw [exec_bind, exec_bind]
    exact Source.Binding.exec_alike hr h
  | other s => exact Source.Statement.exec_alike h s hr

theorem exec_keeps {n : String} {scope : Scope} {i : Item} (h : n ∉ i.changed) :
    Eval.Keeps n scope (i.exec types scope) := by
  simp only [changed, declared, List.mem_append, not_or] at h
  cases i with
  | bind span x =>
    rw [exec_bind]
    exact Source.Binding.exec_keeps fun he => h.1.1 (Option.mem_toList.2 (he ▸ rfl))
  | other s => exact Source.Statement.exec_keeps s h.1.2 h.2

end Item

namespace Reordering
variable (types : Source.TypeExpr → TypeRef)

def runItems (scope : Scope) (items : List Item) : Eval Scope :=
  items.foldlM (Item.exec types) scope

theorem runItems_cons (scope : Scope) (i : Item) (rest : List Item) :
    runItems types scope (i :: rest) =
      i.exec types scope >>= fun after => runItems types after rest :=
  List.foldlM_cons

theorem runItems_append (scope : Scope) (a b : List Item) :
    runItems types scope (a ++ b) =
      runItems types scope a >>= fun after => runItems types after b := List.foldlM_append

theorem blockExec_toStatement (scope : Scope) (items : List Item) :
    Source.blockExec types scope (items.map (·.toStatement)) = runItems types scope items := by
  induction items generalizing scope with
  | nil => rfl
  | cons i rest ih =>
    rw [List.map_cons, Source.blockExec, runItems_cons]
    exact congrArg _ (funext ih)

/-- A body runs as its steps do. -/
theorem blockExec_eq_runItems (scope : Scope) (body : List Source.Statement) :
    Source.blockExec types scope body = runItems types scope (body.flatMap Item.ofStatement) := by
  have hlocals (span : Span) (bs : List Source.Binding) (scope : Scope) :
      bs.foldlM (Source.Binding.exec types) scope =
        runItems types scope (bs.map (Item.bind span)) := by
    induction bs generalizing scope with
    | nil => rfl
    | cons b rest ih =>
      rw [List.foldlM_cons, List.map_cons, runItems_cons, Item.exec_bind]
      exact congrArg _ (funext ih)
  induction body generalizing scope with
  | nil => rfl
  | cons s rest ih =>
    have hs : s.exec types scope = runItems types scope (Item.ofStatement s) := by
      cases s with
      | letIn span bs => exact hlocals span bs scope
      | pass span => rfl
      | _ => exact (bind_pure _).symm
    rw [Source.blockExec, List.flatMap_cons, runItems_append, hs]
    exact congrArg _ (funext ih)

theorem runItems_keeps {n : String} {items : List Item} (h : ∀ i ∈ items, n ∉ i.changed)
    (scope : Scope) : Eval.Keeps n scope (runItems types scope items) := by
  induction items generalizing scope with
  | nil => exact Eval.keeps_ok
  | cons i rest ih =>
    rw [runItems_cons]
    exact (Item.exec_keeps (h i List.mem_cons_self)).bind fun after =>
      ih (fun j hj => h j (List.mem_cons_of_mem _ hj)) after

/-! ### The two orders -/

/-- Both succeed, with related results, or both fail. -/
inductive Paired {α β : Type} (R : α → β → Prop) : Eval α → Eval β → Prop where
  | ok {a : α} {b : β} (h : R a b) : Paired R (.ok a) (.ok b)
  | error (e e' : EvalError) : Paired R (.error e) (.error e')

namespace Paired
variable {α β : Type} {R : α → β → Prop}

theorem ok_left {a : α} {y : Eval β} (h : Paired R (.ok a) y) : ∃ b, y = .ok b ∧ R a b := by
  cases h with
  | ok h => exact ⟨_, rfl, h⟩

theorem ok_right {x : Eval α} {b : β} (h : Paired R x (.ok b)) : ∃ a, x = .ok a ∧ R a b := by
  cases h with
  | ok h => exact ⟨_, rfl, h⟩

theorem of_bind {γ : Type} (x : Eval γ) {f : γ → Eval α} {g : γ → Eval β}
    (h : ∀ v, Paired R (f v) (g v)) : Paired R (x >>= f) (x >>= g) := by
  cases x with
  | ok v => exact h v
  | error e => exact .error e e

/-- Runs after which the scopes agree, up to some names. -/
theorem of_alike {off : List String} {x y : Eval Scope} (h : Eval.Alike off x y)
    {f : Scope → Eval α} {g : Scope → Eval β}
    (hf : ∀ a b, x = .ok a → (∀ n, n ∉ off → Bindings.get? a n = Bindings.get? b n) →
      Paired R (f a) (g b)) : Paired R (x >>= f) (y >>= g) := by
  cases h with
  | ok h => exact hf _ _ rfl h
  | error e => exact .error e e

end Paired

/-- The steps that run before the stages. -/
def residualItems (src : String) (items : List Item) : List Item :=
  items.filter fun i => !i.isVariable src

/-- The variables that steps declare. -/
def sourceVariables (src : String) (items : List Item) : List (String × Source.Expr) :=
  items.filterMap (·.asVariable? src)

/-- The values of variables in a scope. -/
def evaluate (scope : Scope) (vars : List (String × Source.Expr)) :
    Eval (List (String × Value)) :=
  vars.mapM fun v => do return (v.1, ← v.2.eval types scope)

/-- The staged order of steps, from the scope of the residuals and the values of variables
so far: the residuals, then the variables, which see the source. -/
def staged (src : String) (s : Value) (scope known : Scope) (items : List Item) :
    Eval (Scope × Scope) := do
  let after ← runItems types scope (residualItems src items)
  let values ← evaluate types (Bindings.set after src s) (sourceVariables src items)
  return (after, Bindings.setAll known values)

theorem residualItems_variable {src : String} {i : Item} (hi : i.isVariable src = true)
    (rest : List Item) : residualItems src (i :: rest) = residualItems src rest :=
  List.filter_cons_of_neg (by rw [hi]; exact Bool.false_ne_true)

theorem staged_eq_ok {src : String} {s : Value} {scope known : Scope} {items : List Item}
    {q : Scope × Scope} : staged types src s scope known items = .ok q ↔
      ∃ after values, runItems types scope (residualItems src items) = .ok after ∧
        evaluate types (Bindings.set after src s) (sourceVariables src items) = .ok values ∧
          q = (after, Bindings.setAll known values) := by
  simp only [staged, bind_eq_ok]
  constructor
  · rintro ⟨after, hafter, values, hvalues, hq⟩
    cases hq
    exact ⟨after, values, hafter, hvalues, rfl⟩
  · rintro ⟨after, values, hafter, hvalues, rfl⟩
    exact ⟨after, hafter, values, hvalues, rfl⟩

theorem staged_error {src : String} {s : Value} {scope known : Scope} {items : List Item}
    {e : EvalError} (h : runItems types scope (residualItems src items) = .error e) :
    staged types src s scope known items = .error e := by
  rw [staged, h]
  rfl

theorem staged_residual {src : String} (s : Value) (scope known : Scope) {i : Item}
    (hi : i.isVariable src = false) (rest : List Item) :
    staged types src s scope known (i :: rest) =
      i.exec types scope >>= fun after => staged types src s after known rest := by
  have hr : residualItems src (i :: rest) = i :: residualItems src rest :=
    List.filter_cons_of_pos (by rw [hi]; rfl)
  have hv : sourceVariables src (i :: rest) = sourceVariables src rest := by
    refine List.filterMap_cons_none ?_
    cases i with
    | bind span b => rw [Item.asVariable?, hi]; rfl
    | other s => rfl
  rw [staged, hr, hv, runItems_cons, bind_assoc]
  rfl

/-- A variable is a local with a value. -/
theorem eq_bind_of_isVariable {src : String} {i : Item} (hi : i.isVariable src = true) :
    ∃ span b e, i = .bind span b ∧ b.value = some e ∧
      i.asVariable? src = some (b.name.text, e) := by
  cases i with
  | other s => cases hi
  | bind span b =>
    cases hb : b.value with
    | none => simp [Item.isVariable, hb, Source.optionalReads] at hi
    | some e =>
      refine ⟨span, b, e, rfl, hb, ?_⟩
      rw [Item.asVariable?, hi, if_pos rfl, hb]
      rfl

theorem staged_variable {src : String} (s : Value) (scope known : Scope) {i : Item} {name : String}
    {e : Source.Expr} (hi : i.isVariable src = true) (hv : i.asVariable? src = some (name, e))
    (rest : List Item) {after : Scope}
    (hafter : runItems types scope (residualItems src rest) = .ok after) :
    staged types src s scope known (i :: rest) =
      e.eval types (Bindings.set after src s) >>= fun v =>
        staged types src s scope (Bindings.set known name v) rest := by
  have hvars : sourceVariables src (i :: rest) = (name, e) :: sourceVariables src rest :=
    List.filterMap_cons_some hv
  have hrest (known : Scope) : staged types src s scope known rest =
      evaluate types (Bindings.set after src s) (sourceVariables src rest) >>= fun values =>
        .ok (after, Bindings.setAll known values) := by
    rw [staged, hafter]
    rfl
  rw [staged, residualItems_variable hi, hvars, hafter]
  show evaluate types _ (_ :: _) >>= _ = _
  rw [evaluate, List.mapM_cons]
  simp only [bind_assoc, pure_bind, hrest]
  rfl

/-- The names of variables. -/
def variableNames (src : String) (items : List Item) : List String :=
  (sourceVariables src items).map (·.1)

/-- The step makes a float of its value. -/
def makesFloat : Item → Bool
  | .bind _ b => b.type.any fun t => (types t).text == "float"
  | .other _ => false

theorem coerce_of_not_makesFloat {span : Span} {b : Source.Binding}
    (h : makesFloat types (.bind span b) = false) (v : Value) : b.coerce types v = v := by
  obtain ⟨name, type, value⟩ := b
  cases type with
  | none => rfl
  | some t =>
    have ht : (types t).text ≠ "float" := by simpa [makesFloat] using h
    cases v with
    | int n => exact if_neg ht
    | _ => rfl

/-- What makes both orders do the same, where `read` is read after the last step. -/
structure Ordered (src : String) (read : List String) (steps : List Item) : Prop where
  /-- A residual reads neither the source nor a variable. -/
  residual : ∀ pre i post, steps = pre ++ i :: post → i.isVariable src = false →
    ∀ r ∈ i.reads, r.text ∉ src :: variableNames src pre
  /-- A variable reads no other. -/
  untainted : ∀ pre i post, steps = pre ++ i :: post → i.isVariable src = true →
    ∀ r ∈ i.reads, r.text ∉ variableNames src pre
  /-- What a variable reads, besides the source, does not change after it. -/
  unchanged : ∀ pre i mid j post, steps = pre ++ i :: (mid ++ j :: post) →
    i.isVariable src = true → ∀ r ∈ i.reads, r.text ≠ src → r.text ∉ j.changed
  /-- The source does not change before a variable. -/
  source : ∀ pre i mid j post, steps = pre ++ i :: (mid ++ j :: post) →
    j.isVariable src = true → src ∉ i.changed
  /-- What is read at the end, the source or a name of variables, was changed last by a
  variable whose value is kept. -/
  final : ∀ pre i post, steps = pre ++ i :: post →
    ∀ n ∈ read, n ∈ src :: variableNames src steps → n ∈ i.changed →
      (∀ j ∈ post, n ∉ j.changed) → i.isVariable src = true ∧ makesFloat types i = false

/-- The state of both orders after some steps: the scope of the written order, the scope of
the residuals, and the source with the values of variables so far. -/
structure Tracks (src : String) (s : Value) (read : List String) (pre post : List Item)
    (written scope known : Scope) : Prop where
  names : ∀ n, n ∈ Bindings.names known ↔ n ∈ src :: variableNames src pre
  agree : ∀ n, n ∉ Bindings.names known → Bindings.get? written n = Bindings.get? scope n
  source : (∃ j ∈ post, j.isVariable src = true) → Bindings.get? written src = some s
  final : ∀ n ∈ read, n ∈ Bindings.names known →
    (∃ j ∈ post, n ∈ j.changed) ∨ Bindings.get? written n = Bindings.get? known n

variable {types} {src : String} {s : Value} {read : List String} {steps : List Item}

theorem variableNames_append (a b : List Item) :
    variableNames src (a ++ b) = variableNames src a ++ variableNames src b := by
  simp [variableNames, sourceVariables]

theorem variableNames_residual {i : Item} (hi : i.isVariable src = false) :
    variableNames src [i] = [] := by
  cases i with
  | bind span b => simp [variableNames, sourceVariables, Item.asVariable?, hi]
  | other s => rfl

theorem variableNames_variable {i : Item} {name : String} {e : Source.Expr}
    (hv : i.asVariable? src = some (name, e)) : variableNames src [i] = [name] := by
  simp [variableNames, sourceVariables, hv]

/-- What no step from here on changes has its value already. -/
theorem Tracks.settled {pre rest : List Item} {i : Item} {written scope known : Scope}
    (h : Tracks src s read pre (i :: rest) written scope known) {n : String} (hn : n ∈ read)
    (hk : n ∈ Bindings.names known) (hi : n ∉ i.changed) (hrest : ∀ j ∈ rest, n ∉ j.changed) :
    Bindings.get? written n = Bindings.get? known n := by
  refine (h.final n hn hk).resolve_left ?_
  rintro ⟨j, hj, hjc⟩
  rcases List.mem_cons.1 hj with rfl | hj
  · exact hi hjc
  · exact hrest j hj hjc

/-- A residual is a step of both orders. -/
theorem Tracks.residual (ho : Ordered types src read steps) {pre rest : List Item} {i : Item}
    (hsteps : steps = pre ++ i :: rest) (hi : i.isVariable src = false)
    {written scope known after after' : Scope}
    (h : Tracks src s read pre (i :: rest) written scope known)
    (hw : i.exec types written = .ok after)
    (hagree : ∀ n, n ∉ Bindings.names known → Bindings.get? after n = Bindings.get? after' n) :
    Tracks src s read (pre ++ [i]) rest after after' known := by
  have hreads := ho.residual pre i rest hsteps hi
  have hkeep {n : String} (hn : n ∉ i.changed) : Bindings.get? after n = Bindings.get? written n :=
    Item.exec_keeps hn after hw
  refine ⟨fun n => ?_, hagree, ?_, ?_⟩
  · rw [h.names, variableNames_append, variableNames_residual hi, List.append_nil]
  · rintro ⟨j, hj, hvar⟩
    obtain ⟨mid, post, rfl⟩ := List.append_of_mem hj
    rw [hkeep (ho.source pre i mid j post hsteps hvar)]
    exact h.source ⟨j, List.mem_cons_of_mem _ hj, hvar⟩
  · intro n hn hk
    by_cases hlater : ∃ j ∈ rest, n ∈ j.changed
    · exact .inl hlater
    right
    have hlast : ∀ j ∈ rest, n ∉ j.changed := fun j hj hc => hlater ⟨j, hj, hc⟩
    by_cases hc : n ∈ i.changed
    · -- the residual would be the last to change a name that is read at the end
      have hall : n ∈ src :: variableNames src steps := by
        have hpre := (h.names n).1 hk
        rw [hsteps, variableNames_append]
        exact List.cons_append ▸ List.mem_append_left _ hpre
      have hvar := (ho.final pre i rest hsteps n hn hall hc hlast).1
      rw [hi] at hvar
      cases hvar
    · rw [hkeep hc]
      exact h.settled hn hk hc hlast

/-- A variable is a step of the written order, and its value is known from there on. -/
theorem Tracks.ofVariable (ho : Ordered types src read steps) {pre rest : List Item} {span : Span}
    {b : Source.Binding} {e : Source.Expr} (hsteps : steps = pre ++ .bind span b :: rest)
    (hi : (Item.bind span b).isVariable src = true)
    (hv : (Item.bind span b).asVariable? src = some (b.name.text, e))
    {written scope known : Scope}
    (h : Tracks src s read pre (.bind span b :: rest) written scope known) (v : Value) :
    Tracks src s read (pre ++ [.bind span b]) rest
      (Bindings.set written b.name.text (b.coerce types v)) scope
      (Bindings.set known b.name.text v) := by
  have hchanged (n : String) : n ∈ (Item.bind span b).changed ↔ n = b.name.text := by
    simp [Item.changed, Item.declared, Item.declares?, Item.inner, Item.assigned]
  have hnames (n : String) : n ∈ Bindings.names (Bindings.set known b.name.text v) ↔
      n = b.name.text ∨ n ∈ Bindings.names known := Bindings.mem_names_set known _ n v
  refine ⟨fun n => ?_, fun n hn => ?_, ?_, ?_⟩
  · rw [hnames, h.names, variableNames_append, variableNames_variable hv]
    simp only [List.mem_cons, List.mem_append, List.not_mem_nil, or_false]
    exact or_comm.trans or_assoc
  · rw [hnames, not_or] at hn
    rw [Bindings.get?_set_other written _ (Ne.symm hn.1)]
    exact h.agree n hn.2
  · rintro ⟨j, hj, hvar⟩
    obtain ⟨mid, post, rfl⟩ := List.append_of_mem hj
    have hsrc := ho.source pre _ mid j post hsteps hvar
    rw [hchanged] at hsrc
    rw [Bindings.get?_set_other written _ (Ne.symm hsrc)]
    exact h.source ⟨.bind span b, List.mem_cons_self, hi⟩
  · intro n hn hk
    by_cases hlater : ∃ j ∈ rest, n ∈ j.changed
    · exact .inl hlater
    right
    have hlast : ∀ j ∈ rest, n ∉ j.changed := fun j hj hc => hlater ⟨j, hj, hc⟩
    by_cases he : n = b.name.text
    · have hall : n ∈ src :: variableNames src steps := by
        rw [hsteps, List.append_cons, variableNames_append, variableNames_append,
          variableNames_variable hv, he]
        simp
      have hfloat := (ho.final pre _ rest hsteps n hn hall ((hchanged n).2 he) hlast).2
      rw [he, Bindings.get?_set_same, Bindings.get?_set_same,
        coerce_of_not_makesFloat types hfloat]
    · rw [Bindings.get?_set_other written _ (Ne.symm he),
        Bindings.get?_set_other known _ (Ne.symm he)]
      have hk := ((hnames n).1 hk).resolve_left he
      exact h.settled hn hk (fun hc => he ((hchanged n).1 hc)) hlast

/-- The value of a variable is the same where it is written and after all residuals. -/
theorem variable_eval (ho : Ordered types src read steps) {pre rest : List Item} {i : Item}
    {e : Source.Expr} (hsteps : steps = pre ++ i :: rest) (hi : i.isVariable src = true)
    (he : i.reads = e.reads) {written scope known after : Scope}
    (h : Tracks src s read pre (i :: rest) written scope known)
    (hafter : runItems types scope (residualItems src rest) = .ok after) :
    e.eval types (Bindings.set after src s) = e.eval types written := by
  refine e.eval_congr fun r hr => ?_
  rw [← he] at hr
  rw [Bindings.get?_set]
  split
  · next hs => rw [← hs, h.source ⟨i, List.mem_cons_self, hi⟩]
  · next hs =>
    have hknown : r.text ∉ Bindings.names known := by
      rw [h.names, List.mem_cons, not_or]
      exact ⟨Ne.symm hs, ho.untainted pre i rest hsteps hi r hr⟩
    rw [h.agree _ hknown]
    refine runItems_keeps types (fun j hj => ?_) scope after hafter
    obtain ⟨mid, post, rfl⟩ := List.append_of_mem (List.mem_filter.1 hj).1
    exact ho.unchanged pre i mid j post hsteps hi r hr (Ne.symm hs)

/-- Both orders fail, or both succeed and stay in step. -/
theorem reorder (ho : Ordered types src read steps) {pre post : List Item}
    (hsteps : steps = pre ++ post) {written scope known : Scope}
    (h : Tracks src s read pre post written scope known) :
    Paired (fun after q => Tracks src s read steps [] after q.1 q.2)
      (runItems types written post) (staged types src s scope known post) := by
  induction post generalizing pre written scope known with
  | nil =>
    rw [List.append_nil] at hsteps
    exact .ok (hsteps ▸ h)
  | cons i rest ih =>
    have hnext : steps = (pre ++ [i]) ++ rest := by rw [hsteps, List.append_assoc]; rfl
    rw [runItems_cons]
    cases hi : i.isVariable src with
    | false =>
      have hreads : ∀ r ∈ i.reads, r.text ∉ Bindings.names known := by
        intro r hr
        rw [h.names]
        exact ho.residual pre i rest hsteps hi r hr
      rw [staged_residual types s scope known hi]
      refine Paired.of_alike (Item.exec_alike hreads h.agree) fun a b hw hagree => ?_
      exact ih hnext (h.residual ho hsteps hi hw hagree)
    | true =>
      obtain ⟨span, b, e, rfl, hb, hv⟩ := eq_bind_of_isVariable hi
      have hrest (v : Value) := ih hnext (h.ofVariable ho hsteps hi hv v)
      rw [Item.exec_given span hb, bind_assoc]
      cases hafter : runItems types scope (residualItems src rest) with
      | ok after =>
        rw [staged_variable types s scope known hi hv rest hafter,
          variable_eval ho hsteps hi (by rw [Item.reads, hb]; rfl) h hafter]
        exact Paired.of_bind _ hrest
      | error err =>
        -- the residuals after the variable fail, in the written order at the latest there
        rw [staged_error types (by rw [residualItems_variable hi, hafter])]
        cases e.eval types written with
        | error e' => exact .error e' err
        | ok v =>
          have hfails := hrest v
          rw [staged_error types hafter] at hfails
          exact hfails

end Reordering
end StagedMapping
