import StagedMapping.Proofs.BoundScope
import StagedMapping.Query

/-! Records of stages as environments. The stages pass values on in flat records, but what
they compute is a plain evaluation: the variables in the scope that the binding left, with
the source in it, then the properties of the target in the scope that they extend
(`Mapping.unstaged`). The record of a stage holds the values of this scope for the names
that the next stage may read (`Bindings.Agree`), whatever these names are and however often
they occur: a record and a scope are set in the same order, the name of the first stage's
argument is not taken, and the later stages are closed. -/
namespace StagedMapping

/-! ### Names set one after the other -/

namespace Bindings
variable {α : Type}

def setAll (bindings values : List (String × α)) : List (String × α) :=
  values.foldl (fun b v => set b v.1 v.2) bindings

theorem setAll_cons (bindings : List (String × α)) (v : String × α) (rest : List (String × α)) :
    setAll bindings (v :: rest) = setAll (set bindings v.1 v.2) rest := rfl

theorem get?_setAll_other {values : List (String × α)} {n : String} (h : n ∉ names values)
    (bindings : List (String × α)) : get? (setAll bindings values) n = get? bindings n := by
  induction values generalizing bindings with
  | nil => rfl
  | cons v rest ih =>
    rw [names, List.map_cons, List.mem_cons, not_or] at h
    rw [setAll_cons, ih h.2, get?_set_other bindings v.2 (Ne.symm h.1)]

/-- Of several values that are set for one name the last counts. -/
theorem get?_setAll (bindings values : List (String × α)) (n : String) :
    get? (setAll bindings values) n = (get? values.reverse n).or (get? bindings n) := by
  induction values generalizing bindings with
  | nil => rfl
  | cons v rest ih =>
    rw [setAll_cons, ih, get?_set, List.reverse_cons, get?_append, get?_cons, get?_nil,
      Option.or_assoc]
    congr 1
    by_cases h : v.1 = n <;> simp [h]

/-- Both bind each of some names, and to the same. -/
def Agree (ns : List String) (a b : List (String × α)) : Prop :=
  ∀ n ∈ ns, ∃ v, get? a n = some v ∧ get? b n = some v

theorem Agree.nil (a b : List (String × α)) : Agree [] a b := nofun

theorem Agree.mono {ns ms : List String} {a b : List (String × α)} (h : Agree ns a b)
    (hm : ∀ n ∈ ms, n ∈ ns) : Agree ms a b := fun n hn => h n (hm n hn)

/-- A name set on both sides. -/
theorem Agree.set {ns : List String} {a b : List (String × α)} (h : Agree ns a b) (name : String)
    (value : α) : Agree (name :: ns) (Bindings.set a name value) (Bindings.set b name value) := by
  intro n hn
  rw [get?_set, get?_set]
  split
  · exact ⟨value, rfl, rfl⟩
  · next hne =>
    rcases List.mem_cons.1 hn with he | hn
    · exact absurd he.symm hne
    · exact h n hn

/-- A name set on one side to what it is on the other. -/
theorem Agree.set_left {ns : List String} {a b : List (String × α)} (h : Agree ns a b)
    {name : String} {value : α} (hv : get? b name = some value) :
    Agree (name :: ns) (Bindings.set a name value) b := by
  intro n hn
  rw [get?_set]
  split
  · next he => exact ⟨value, rfl, he ▸ hv⟩
  · next hne =>
    rcases List.mem_cons.1 hn with he | hn
    · exact absurd he.symm hne
    · exact h n hn

theorem Agree.setAll {ns : List String} {a b : List (String × α)} (h : Agree ns a b)
    (values : List (String × α)) :
    Agree (ns ++ names values) (Bindings.setAll a values) (Bindings.setAll b values) := by
  induction values generalizing ns a b with
  | nil => simpa [names, Bindings.setAll] using h
  | cons v rest ih =>
    refine (ih (h.set v.1 v.2)).mono fun n hn => ?_
    simp only [names, List.map_cons, List.mem_append, List.mem_cons] at hn ⊢
    exact hn.elim (fun hn => .inl (.inr hn)) fun hn => hn.elim (fun hn => .inl (.inl hn)) .inr

/-- The values of named things have their names. -/
theorem names_of_mapM {value : α → Eval Value} {bs : List (String × α)}
    {values : List (String × Value)}
    (h : (bs.mapM fun b => do return (b.1, ← value b.2)) = (.ok values : Eval _)) :
    names values = bs.map (·.1) := by
  induction bs generalizing values with
  | nil => cases h; rfl
  | cons b rest ih =>
    rw [List.mapM_cons] at h
    cases hv : value b.2 with
    | error e => rw [hv] at h; cases h
    | ok v =>
      cases hrest : rest.mapM fun b => do return (b.1, ← value b.2) with
      | error e => rw [hv, hrest] at h; cases h
      | ok others =>
        rw [hv, hrest] at h
        cases h
        rw [List.map_cons, ← ih hrest]
        rfl

/-- What a name is bound to has a value, to which it is bound then. -/
theorem get?_of_mapM {value : α → Eval Value} {bs : List (String × α)}
    {values : List (String × Value)}
    (h : (bs.mapM fun b => do return (b.1, ← value b.2)) = (.ok values : Eval _)) {n : String}
    {x : α} (hx : get? bs n = some x) : ∃ v, value x = .ok v ∧ get? values n = some v := by
  rw [mapM_eq_ok_iff] at h
  induction bs generalizing values with
  | nil => cases hx
  | cons b rest ih =>
    obtain - | ⟨y, ys⟩ := values
    · cases h
    obtain ⟨hb, hrest⟩ := List.cons.inj h
    obtain ⟨v, hv, rfl⟩ := map_eq_ok.1 hb
    rw [get?_cons] at hx ⊢
    split at hx
    case isTrue hn => cases hx; exact ⟨v, hv, if_pos hn⟩
    case isFalse hn => rw [if_neg hn]; exact ih hrest hx

end Bindings

/-! ### Trees over records -/

namespace Tree

theorem substituteBindings_eq_map (replace : String → Option Tree) (bs : List (String × Tree)) :
    substituteBindings replace bs = bs.map fun b => (b.1, b.2.substitute replace) := by
  induction bs with
  | nil => rfl
  | cons b rest ih => rw [substituteBindings, ih, List.map_cons]

theorem evalBindings_append (scope : Scope) (fields : List (String × Value))
    (a b : List (String × Tree)) : evalBindings scope fields (a ++ b) =
      evalBindings scope fields a >>= fun after => evalBindings scope after b := by
  induction a generalizing fields with
  | nil => rfl
  | cons x rest ih =>
    rw [List.cons_append, evalBindings, evalBindings, bind_assoc]
    exact congrArg _ (funext fun v => ih _)

/-- Fields whose values are those of an environment. -/
theorem evalBindings_agree {scope env : Scope} {bs : List (String × Tree)}
    (h : ∀ b ∈ bs, ∃ v, b.2.eval scope = .ok v ∧ Bindings.get? env b.1 = some v)
    {ns : List String} {fields : List (String × Value)} (hf : Bindings.Agree ns fields env) :
    ∃ after, evalBindings scope fields bs = .ok after ∧
      Bindings.Agree (ns ++ bs.map (·.1)) after env := by
  induction bs generalizing ns fields with
  | nil => exact ⟨fields, rfl, by simpa using hf⟩
  | cons b rest ih =>
    obtain ⟨v, hv, he⟩ := h b List.mem_cons_self
    obtain ⟨after, hafter, hagree⟩ :=
      ih (fun b hb => h b (List.mem_cons_of_mem _ hb)) (hf.set_left he)
    refine ⟨after, ?_, hagree.mono fun n hn => ?_⟩
    · rw [evalBindings, hv]
      exact hafter
    · simp only [List.map_cons, List.mem_append, List.mem_cons] at hn ⊢
      exact hn.elim (fun hn => .inl (.inr hn)) fun hn => hn.elim (fun hn => .inl (.inl hn)) .inr

/-- Fields of trees that have the values of other trees in an environment. -/
theorem evalBindings_map {scope env : Scope} {g : Tree → Tree} {bs : List (String × Tree)}
    (h : ∀ b ∈ bs, (g b.2).eval scope = b.2.eval env) (fields : List (String × Value)) :
    evalBindings scope fields (bs.map fun b => (b.1, g b.2)) = do
      let values ← bs.mapM fun b => do return (b.1, ← b.2.eval env)
      return Bindings.setAll fields values := by
  induction bs generalizing fields with
  | nil => rfl
  | cons b rest ih =>
    rw [List.map_cons, evalBindings, h b List.mem_cons_self, List.mapM_cons]
    simp only [bind_assoc, pure_bind]
    refine congrArg _ (funext fun v => ?_)
    rw [ih fun b hb => h b (List.mem_cons_of_mem _ hb)]
    rfl

theorem mem_parameters (t : Tree) (n : String) : n ∈ t.parameters ↔ n ∈ t.reads := by
  have hfold (reads seen : List String) : n ∈ reads.foldl (fun seen name =>
      if seen.contains name then seen else seen ++ [name]) seen ↔ n ∈ seen ∨ n ∈ reads := by
    induction reads generalizing seen with
    | nil => simp
    | cons r rest ih =>
      rw [List.foldl_cons, ih]
      by_cases hr : r ∈ seen
      · simp only [List.contains_eq_mem, hr, decide_true, if_true, List.mem_cons]
        constructor
        · exact fun h => h.imp_right .inr
        · rintro (h | rfl | h)
          · exact .inl h
          · exact .inl hr
          · exact .inr h
      · simp [List.contains_eq_mem, hr, or_assoc]
  rw [parameters, hfold]
  simp

end Tree

/-! ### Names -/

theorem toString_nat_inj {m n : Nat} (h : toString m = toString n) : m = n := by
  have hdigits : Nat.toDigits 10 m = Nat.toDigits 10 n := by
    rw [← Nat.toList_repr, ← Nat.toList_repr]
    exact congrArg String.toList h
  rw [← @Nat.ofDigitChars_ten_toDigits m, hdigits, Nat.ofDigitChars_ten_toDigits]

theorem numbered_nodup (base : String) (k : Nat) :
    (base :: (List.range k).map fun i => base ++ toString (i + 1)).Nodup := by
  refine List.nodup_cons.2 ⟨fun hb => ?_, List.pairwise_map.2 (List.nodup_range.imp ?_)⟩
  · obtain ⟨i, -, hi⟩ := List.mem_map.1 hb
    simpa using congrArg String.toList hi
  · intro i j hij he
    have := toString_nat_inj ((String.append_right_inj base).1 he)
    omega

/-- A fresh name is not taken. -/
theorem freshName_not_taken (base : String) (taken : List String) :
    freshName base taken ∉ taken := by
  unfold freshName
  extract_lets numbered
  cases hf : (base :: numbered).find? fun name => !taken.contains name with
  | some name => simpa using List.find?_some hf
  | none =>
    -- then all of the candidates are taken, but there is one more of them
    have hall : base :: numbered ⊆ taken := by
      intro name hname
      simpa using List.find?_eq_none.1 hf name hname
    have hlength := (numbered_nodup base taken.length).length_le_of_subset hall
    rw [List.length_cons, List.length_map, List.length_range] at hlength
    omega

namespace Mapping

/-- What is captured: the residual locals that are read and not hidden. -/
theorem mem_captures (f : Factory) (read : List String) (n : String) :
    n ∈ (captures f read).map (·.1) ↔ n ∈ f.residualLocals.map (·.1) ∧ n ∈ read ∧
      n ∉ f.sourceParam :: f.parameters.map (·.name) := by
  unfold captures
  extract_lets hidden
  change _ ↔ _ ∧ _ ∧ n ∉ hidden
  induction f.residualLocals with
  | nil => simp
  | cons v rest ih =>
    rw [List.foldr_cons, List.map_cons, List.mem_cons]
    generalize rest.foldr _ [] = kept at ih ⊢
    split
    · next h =>
      simp only [Bool.and_eq_true, Bool.not_eq_true', List.contains_eq_mem, decide_eq_true_eq,
        decide_eq_false_iff_not] at h
      rw [List.map_cons, List.mem_cons, ih]
      constructor
      · rintro (rfl | ⟨hn, hr, hh⟩)
        · exact ⟨.inl rfl, h.1.1, h.1.2⟩
        · exact ⟨.inr hn, hr, hh⟩
      · rintro ⟨hn | hn, hr, hh⟩
        · exact .inl hn
        · exact .inr ⟨hn, hr, hh⟩
    · next h =>
      rw [ih]
      refine ⟨fun ⟨hn, hr, hh⟩ => ⟨.inr hn, hr, hh⟩, fun ⟨hn, hr, hh⟩ => ⟨?_, hr, hh⟩⟩
      rcases hn with rfl | hn
      · -- it is left out only if it is kept from a later place
        simp only [Bool.and_eq_true, Bool.not_eq_true', List.contains_eq_mem, decide_eq_true_eq,
          decide_eq_false_iff_not, hr, hh, not_false_eq_true, true_and, Bool.not_eq_false,
          List.any_eq_true, beq_iff_eq] at h
        obtain ⟨w, hw, he⟩ := h
        exact (ih.1 (he ▸ List.mem_map_of_mem hw)).1
      · exact hn

/-! ### The target -/

section
variable (m : Mapping) (c : Compilation) (f : Factory)

/-- The fields of a target in the order of its properties: what is given for a property, else
what is filled in from the source property matched with it. -/
def targetFields (given : String → Option (Eval Value)) (filled : String → Eval Value)
    (fields : List (String × Value)) : List String → Eval (List (String × Value))
  | [] => .ok fields
  | name :: rest =>
    match given name, m.properties.find? (·.target.name == name) with
    | some value, _ => do targetFields given filled (Bindings.set fields name (← value)) rest
    | none, some p => do
      targetFields given filled (Bindings.set fields name (← filled p.source.name)) rest
    | none, none => targetFields given filled fields rest

def targetRecord (given : String → Option (Eval Value)) (filled : String → Eval Value) :
    Eval Value := do
  return .record m.target.qualified (← m.targetFields given filled [] (m.targetProperties c))

theorem construction_eval (explicit : List (String × Tree)) (fallback : String → Tree)
    (scope : Scope) : (m.construction c explicit fallback).eval scope =
      m.targetRecord c (fun name => (Bindings.get? explicit name).map (·.eval scope))
        (fun p => (fallback p).eval scope) := by
  have hfields (names : List String) (fields : List (String × Value)) :
      Tree.evalBindings scope fields (names.filterMap (m.propertyBinding? explicit fallback)) =
        m.targetFields (fun name => (Bindings.get? explicit name).map (·.eval scope))
          (fun p => (fallback p).eval scope) fields names := by
    induction names generalizing fields with
    | nil => rfl
    | cons name rest ih =>
      rw [List.filterMap_cons, targetFields, propertyBinding?]
      cases Bindings.get? explicit name with
      | some t => exact congrArg _ (funext fun v => ih _)
      | none =>
        cases m.properties.find? (·.target.name == name) with
        | some p => exact congrArg _ (funext fun v => ih _)
        | none => exact ih fields
  rw [construction, Tree.eval, hfields]
  rfl

/-! ### Stages -/

/-- What a lowered factory reads. -/
def Lowered.read (t : Lowered) : List String := (t.vars ++ t.properties).flatMap (·.2.parameters)

/-- The fields of the first stage's record. -/
def fields : List (String × String) :=
  m.paramsFields f (captures f (m.lower c f).value.read)

theorem fields_names : (m.fields c f).map (·.1) = f.sourceParam :: f.parameters.map (·.name) ++
    (captures f (m.lower c f).value.read).map (·.1) := by
  simp [fields, paramsFields]

theorem source_mem_fields : f.sourceParam ∈ (m.fields c f).map (·.1) := by
  rw [fields_names]
  exact List.mem_cons_self

/-- What is visible and read is a field. -/
theorem mem_fields {n : String} (hv : n ∈ visible f) (hr : n ∈ (m.lower c f).value.read) :
    n ∈ (m.fields c f).map (·.1) := by
  rw [fields_names, List.mem_append, mem_captures]
  by_cases hh : n ∈ f.sourceParam :: f.parameters.map (·.name)
  · exact .inl hh
  · exact .inr ⟨(List.mem_append.1 hv).resolve_left hh, hr, hh⟩

/-- The fields that variables and initializers read. -/
theorem vars_fields : ∀ v ∈ (m.lower c f).value.vars, ∀ n ∈ v.2.reads,
    n ∈ (m.fields c f).map (·.1) := by
  intro v hv n hn
  refine m.mem_fields c f (m.vars_reads c f v hv n hn) (List.mem_flatMap.2 ⟨v, ?_, ?_⟩)
  · exact List.mem_append_left _ hv
  · exact (Tree.mem_parameters v.2 n).2 hn

theorem properties_fields : ∀ p ∈ (m.lower c f).value.properties, ∀ n ∈ p.2.reads,
    n ∈ (m.fields c f).map (·.1) ++ f.vars.map (·.name) := by
  intro p hp n hn
  rcases List.mem_append.1 (m.properties_reads c f p hp n hn) with hv | hv
  · refine List.mem_append_left _ (m.mem_fields c f hv (List.mem_flatMap.2 ⟨p, ?_, ?_⟩))
    · exact List.mem_append_right _ hp
    · exact (Tree.mem_parameters p.2 n).2 hn
  · exact List.mem_append_right _ hv

end

/-- A name read off a record. -/
theorem stageField_eval (typeName : String) {record env : List (String × Value)} {ns : List String}
    (h : Bindings.Agree ns record env) {n : String} (hn : n ∈ ns) :
    ∃ v, (stageField n).eval [(Convention.stageParameter, .record typeName record)] = .ok v ∧
      Bindings.get? env n = some v := by
  obtain ⟨v, hr, he⟩ := h n hn
  refine ⟨v, ?_, he⟩
  rw [stageField, Tree.eval, Tree.eval, Bindings.get?_cons, if_pos (beq_self_eq_true _)]
  show Value.member (.record typeName record) n = _
  rw [Value.member, hr]

/-- What stands for the name of a field in a tree over fields. -/
theorem overFields_name {fields : List (String × String)} {n : String}
    (hn : n ∈ fields.map (·.1)) :
    (if fields.any (·.1 == n) then some (stageField n) else none).getD (.param n) =
      stageField n := by
  have hfield : fields.any (·.1 == n) = true := by
    obtain ⟨x, hx, he⟩ := List.mem_map.1 hn
    exact List.any_eq_true.2 ⟨x, hx, beq_iff_eq.2 he⟩
  rw [if_pos hfield, Option.getD_some]

/-- A tree over a record has the value that it has in an environment. -/
theorem overFields_eval (typeName : String) {record env : Scope} {fields : List (String × String)}
    (h : Bindings.Agree (fields.map (·.1)) record env) {t : Tree}
    (ht : ∀ n ∈ t.reads, n ∈ fields.map (·.1)) :
    (overFields fields t).eval [(Convention.stageParameter, .record typeName record)] =
      t.eval env := by
  refine Tree.eval_substitute t fun n hn => ?_
  obtain ⟨v, hv, he⟩ := stageField_eval typeName h (ht n hn)
  rw [overFields_name (ht n hn), Tree.eval, he]
  exact hv

section
variable (m : Mapping) (c : Compilation) (f : Factory)

/-- The argument of the first stage has a name that no parameter and no capture has. -/
theorem paramsStage_fresh {n : String} (hn : n ∈ (m.fields c f).map (·.1))
    (hs : n ≠ f.sourceParam) : (m.factoryPlan c f).isBindable n = true := by
  have hother : n ∈ f.parameters.map (·.name) ++
      (captures f (m.lower c f).value.read).map (·.1) := by
    rw [fields_names] at hn
    exact (List.mem_cons.1 hn).resolve_left hs
  have hfresh : n ≠ (m.factoryPlan c f).paramsStage.param :=
    fun he => freshName_not_taken _ _ (he ▸ hother)
  rw [FactoryPlan.isBindable, decide_eq_true hfresh, Bool.true_and, Bool.or_eq_true]
  rcases List.mem_append.1 hother with hp | hc
  · left
    show (parameterPlans _ _ _).value.any _ = true
    rw [← parameterPlans_names (m.lowering c f) []] at hp
    obtain ⟨p, hmem, rfl⟩ := List.mem_map.1 hp
    exact List.any_eq_true.2 ⟨p, hmem, beq_self_eq_true _⟩
  · right
    obtain ⟨x, hmem, rfl⟩ := List.mem_map.1 hc
    exact List.any_eq_true.2 ⟨x, hmem, beq_self_eq_true _⟩

/-- The tree that a binding leaves for a field of the first stage. -/
def boundField (scope : Scope) (n : String) : Tree :=
  Tree.substitute (fun name => if (m.factoryPlan c f).isBindable name then
      (Bindings.get? scope name).map .const else none)
    (.param (if n = f.sourceParam then (m.factoryPlan c f).paramsStage.param else n))

theorem boundField_source (scope : Scope) :
    m.boundField c f scope f.sourceParam = .param (m.factoryPlan c f).paramsStage.param := by
  have hx : (m.factoryPlan c f).isBindable (m.factoryPlan c f).paramsStage.param = false := by
    rw [FactoryPlan.isBindable, decide_eq_false (not_not_intro rfl), Bool.false_and]
  rw [boundField, if_pos rfl, Tree.substitute, hx]
  rfl

theorem boundField_other {scope : Scope}
    (hs : ∀ n ∈ f.boundNames, n ∈ Bindings.names scope)
    {n : String} (hn : n ∈ (m.fields c f).map (·.1)) (he : n ≠ f.sourceParam) :
    ∃ v, m.boundField c f scope n = .const v ∧ Bindings.get? scope n = some v := by
  have hbound : n ∈ Bindings.names scope := by
    apply hs
    rw [fields_names] at hn
    rcases List.mem_append.1 hn with hn | hn
    · exact List.mem_append_left _ ((List.mem_cons.1 hn).resolve_left he)
    · exact List.mem_append_right _ ((mem_captures f _ n).1 hn).1
  obtain ⟨v, hv⟩ := Option.isSome_iff_exists.1 ((Bindings.get?_isSome scope n).2 hbound)
  refine ⟨v, ?_, hv⟩
  rw [boundField, if_neg he, Tree.substitute, m.paramsStage_fresh c f hn he, if_pos rfl, hv]
  rfl

theorem boundField_eval {scope : Scope}
    (hs : ∀ n ∈ f.boundNames, n ∈ Bindings.names scope)
    (s : Value) {n : String} (hn : n ∈ (m.fields c f).map (·.1)) : ∃ v,
      (m.boundField c f scope n).eval [((m.factoryPlan c f).paramsStage.param, s)] = .ok v ∧
      Bindings.get? (Bindings.set scope f.sourceParam s) n = some v := by
  by_cases he : n = f.sourceParam
  · refine ⟨s, ?_, by rw [he, Bindings.get?_set_same]⟩
    rw [he, boundField_source, Tree.eval, Bindings.get?_cons, if_pos (beq_self_eq_true _)]
  · obtain ⟨v, hv, hget⟩ := m.boundField_other c f hs hn he
    refine ⟨v, by rw [hv, Tree.eval], ?_⟩
    rw [Bindings.get?_set_other scope s (Ne.symm he), hget]

theorem boundParams_body (scope : Scope) : ((m.factoryPlan c f).boundParams scope).body =
    .init (m.factoryPlan c f).paramsShape.typeName
      ((m.fields c f).map fun x => (x.1, m.boundField c f scope x.1)) := by
  show Tree.init _ (Tree.substituteBindings _ (List.map _ (m.fields c f))) = _
  rw [Tree.substituteBindings_eq_map, List.map_map]
  rfl

/-- The first stage makes a record of the scope that is left, with the source in it. -/
theorem paramsStage_apply {scope : Scope}
    (hs : ∀ n ∈ f.boundNames, n ∈ Bindings.names scope)
    (s : Value) : ∃ record,
      ((m.factoryPlan c f).boundParams scope).apply s =
        .ok (.record (m.factoryPlan c f).paramsShape.typeName record) ∧
      Bindings.Agree ((m.fields c f).map (·.1)) record (Bindings.set scope f.sourceParam s) := by
  have hfield : ∀ b ∈ (m.fields c f).map fun x => (x.1, m.boundField c f scope x.1),
      ∃ v, b.2.eval [((m.factoryPlan c f).paramsStage.param, s)] = .ok v ∧
        Bindings.get? (Bindings.set scope f.sourceParam s) b.1 = some v := by
    intro b hb
    obtain ⟨x, hx, rfl⟩ := List.mem_map.1 hb
    exact m.boundField_eval c f hs s (List.mem_map_of_mem hx)
  obtain ⟨record, hrecord, hagree⟩ := Tree.evalBindings_agree hfield (Bindings.Agree.nil [] _)
  refine ⟨record, ?_, by simpa [Function.comp_def] using hagree⟩
  rw [Lambda.apply, boundParams_body, Tree.eval]
  exact congrArg (· >>= _) hrecord

/-- The second stage evaluates the variables in the environment that its record holds. -/
theorem varsStage_apply (typeName type : String) {record env : List (String × Value)}
    (h : Bindings.Agree ((m.fields c f).map (·.1)) record env) : ∃ fields,
      (varsStage typeName (m.fields c f) (m.lower c f).value.vars).apply (.record type record) = (do
        let values ← (m.lower c f).value.vars.mapM fun v => do return (v.1, ← v.2.eval env)
        return .record typeName (Bindings.setAll fields values)) ∧
      Bindings.Agree ((m.fields c f).map (·.1)) fields env := by
  have hfield : ∀ b ∈ (m.fields c f).map fun x => (x.1, stageField x.1),
      ∃ v, b.2.eval [(Convention.stageParameter, .record type record)] = .ok v ∧
        Bindings.get? env b.1 = some v := by
    intro b hb
    obtain ⟨x, hx, rfl⟩ := List.mem_map.1 hb
    exact stageField_eval type h (List.mem_map_of_mem hx)
  have hvar : ∀ v ∈ (m.lower c f).value.vars,
      (overFields (m.fields c f) v.2).eval
        [(Convention.stageParameter, .record type record)] = v.2.eval env :=
    fun v hv => overFields_eval type h (m.vars_fields c f v hv)
  obtain ⟨fields, hfields, hagree⟩ := Tree.evalBindings_agree hfield (Bindings.Agree.nil [] env)
  refine ⟨fields, ?_, by simpa [Function.comp_def] using hagree⟩
  show Tree.eval [(Convention.stageParameter, .record type record)] (.init _ (_ ++ _)) = _
  rw [Tree.eval, Tree.evalBindings_append, hfields]
  show (Tree.evalBindings _ fields _ >>= _) = _
  rw [Tree.evalBindings_map hvar]
  simp only [bind_assoc, pure_bind]

/-- The last stage, over a record with some fields. -/
def lastStage (lastFields : List (String × String)) : Lambda :=
  ⟨Convention.stageParameter, m.construction c
    ((m.lower c f).value.properties.map fun p => (p.1, overFields lastFields p.2))
    fun p => .member (stageField f.sourceParam) p⟩

/-- The fields of the second stage's record. -/
def allFields : List (String × String) :=
  m.fields c f ++ f.vars.map fun v => (v.name, v.type.text)

theorem allFields_names :
    (m.allFields c f).map (·.1) = (m.fields c f).map (·.1) ++ f.vars.map (·.name) := by
  simp [allFields]

theorem finalStage_eq : (m.factoryPlan c f).finalStage = m.lastStage c f (m.allFields c f) := by
  by_cases h : f.vars = [] <;>
    simp [factoryPlan, assemble, h, lastStage, allFields, fields, Lowered.read]

/-- Without variables there is no stage between the first and the last. -/
theorem varsStage_of_nil (h : f.vars = []) : (m.factoryPlan c f).varsStage = none := by
  simp [factoryPlan, assemble, h]

theorem varsStage_of_ne_nil (h : f.vars ≠ []) : (m.factoryPlan c f).varsStage =
    some (varsStage (Convention.varsRecord ++ "_" ++ f.digest) (m.fields c f)
      (m.lower c f).value.vars) := by
  simp [factoryPlan, assemble, h, fields, Lowered.read]

/-- The last stage builds the target in the environment that its record holds. -/
theorem lastStage_apply (type : String) {record env : List (String × Value)}
    (h : Bindings.Agree ((m.allFields c f).map (·.1)) record env) :
    (m.lastStage c f (m.allFields c f)).apply (.record type record) =
      m.targetRecord c
        (fun name => (Bindings.get? (m.lower c f).value.properties name).map (·.eval env))
        (fun p => do (← (Tree.param f.sourceParam).eval env).member p) := by
  rw [lastStage, Lambda.apply, construction_eval]
  congr 1
  · funext name
    rw [Bindings.get?_map (overFields (m.allFields c f)), Option.map_map]
    cases hp : Bindings.get? (m.lower c f).value.properties name with
    | none => rfl
    | some t =>
      refine congrArg some (overFields_eval type h fun n hn => ?_)
      rw [allFields_names]
      exact m.properties_fields c f _ (Bindings.mem_of_get? hp) n hn
  · funext p
    have hsource : f.sourceParam ∈ (m.allFields c f).map (·.1) := by
      rw [allFields_names]
      exact List.mem_append_left _ (m.source_mem_fields c f)
    obtain ⟨v, hv, he⟩ := stageField_eval type h hsource
    have hmember : (Tree.member (stageField f.sourceParam) p).eval
        [(Convention.stageParameter, .record type record)] = v.member p := by
      rw [Tree.eval, hv]
      rfl
    rw [Tree.eval, he]
    exact hmember

/-! ### The records of stages -/

/-- The members of a record are what an environment has for some names. -/
def Holds (ns : List String) (env : Scope) (record : Value) : Prop :=
  ∀ n ∈ ns, ∃ v, Bindings.get? env n = some v ∧ record.member n = .ok v

theorem Holds.of_agree {ns : List String} {fields env : List (String × Value)}
    (h : Bindings.Agree ns fields env) (typeName : String) :
    Holds ns env (.record typeName fields) := by
  intro n hn
  obtain ⟨v, hv, he⟩ := h n hn
  exact ⟨v, he, by rw [Value.member, hv]⟩

theorem Holds.member {ns : List String} {env : Scope} {record v : Value} (h : Holds ns env record)
    {n : String} (hn : n ∈ ns) (hv : Bindings.get? env n = some v) : record.member n = .ok v := by
  obtain ⟨w, hw, hr⟩ := h n hn
  rw [hv] at hw
  cases hw
  exact hr

theorem Holds.exists_member {ns : List String} {env : Scope} {record : Value}
    (h : Holds ns env record) {n : String} (hn : n ∈ ns) : ∃ v, record.member n = .ok v :=
  let ⟨v, _, hr⟩ := h n hn
  ⟨v, hr⟩

/-- The values of the variables in an environment. -/
def varValues (env : Scope) : Eval (List (String × Value)) :=
  (m.lower c f).value.vars.mapM fun v => do return (v.1, ← v.2.eval env)

section
variable {env : Scope} {values : List (String × Value)} (hv : m.varValues c f env = .ok values)
include hv

theorem varValues_names : Bindings.names values = f.vars.map (·.name) := by
  have hnames := Bindings.names_of_mapM hv
  rwa [lower_vars, List.map_map] at hnames

/-- A scope in which the values of the variables are set, and the record that holds it. -/
theorem agree_setAll_vars {record : List (String × Value)}
    (h : Bindings.Agree ((m.fields c f).map (·.1)) record env) :
    Bindings.Agree ((m.allFields c f).map (·.1)) (Bindings.setAll record values)
      (Bindings.setAll env values) := by
  rw [allFields_names, ← m.varValues_names c f hv]
  exact h.setAll values

end

section
variable {scope : Scope} (hs : ∀ n ∈ f.boundNames, n ∈ Bindings.names scope)
include hs

/-- The first record holds the bound scope with the source in it. -/
theorem firstRecord (s : Value) : ∃ r,
    applyStages (((m.factoryPlan c f).boundStages scope).take 1) s = .ok r ∧
      Holds ((m.fields c f).map (·.1)) (Bindings.set scope f.sourceParam s) r := by
  obtain ⟨record, hrecord, hagree⟩ := m.paramsStage_apply c f hs s
  refine ⟨_, ?_, .of_agree hagree (m.factoryPlan c f).paramsShape.typeName⟩
  show ((m.factoryPlan c f).boundParams scope).apply s >>= _ = _
  rw [hrecord]
  rfl

/-- The second record holds the same, with the values of the variables set in it. -/
theorem secondRecord (hv : f.vars ≠ []) {s r : Value}
    (hr : applyStages (((m.factoryPlan c f).boundStages scope).take 2) s = .ok r) :
    ∃ values, m.varValues c f (Bindings.set scope f.sourceParam s) = .ok values ∧
      Holds ((m.allFields c f).map (·.1))
        (Bindings.setAll (Bindings.set scope f.sourceParam s) values) r := by
  obtain ⟨record, hrecord, hagree⟩ := m.paramsStage_apply c f hs s
  obtain ⟨fields, hfields, hagree⟩ := m.varsStage_apply c f
    (Convention.varsRecord ++ "_" ++ f.digest) (m.factoryPlan c f).paramsShape.typeName hagree
  rw [FactoryPlan.boundStages, m.varsStage_of_ne_nil c f hv] at hr
  change ((m.factoryPlan c f).boundParams scope).apply s >>= _ = _ at hr
  rw [hrecord] at hr
  change (varsStage _ _ _).apply _ >>= _ = _ at hr
  rw [hfields, bind_assoc, bind_eq_ok] at hr
  obtain ⟨values, hvalues, hr⟩ := hr
  cases hr
  exact ⟨values, hvalues, .of_agree (m.agree_setAll_vars c f hvalues hagree) _⟩

end

/-! ### The simulation -/

/-- The evaluation that the stages stand for, in the scope that the binding left: variables
in order, then the target, both with the source under its name. -/
def unstaged (scope : Scope) (s : Value) : Eval Value := do
  let start := Bindings.set scope f.sourceParam s
  let values ← (m.lower c f).value.vars.mapM fun v => do return (v.1, ← v.2.eval start)
  let last := Bindings.setAll start values
  m.targetRecord c
    (fun name => (Bindings.get? (m.lower c f).value.properties name).map (·.eval last))
    fun p => do (← (Tree.param f.sourceParam).eval last).member p

theorem applyStages_eq_unstaged {scope : Scope}
    (hs : ∀ n ∈ f.boundNames, n ∈ Bindings.names scope) (s : Value) :
    applyStages ((m.factoryPlan c f).boundStages scope) s = m.unstaged c f scope s := by
  obtain ⟨record, hrecord, hagree⟩ := m.paramsStage_apply c f hs s
  show ((m.factoryPlan c f).boundParams scope).apply s >>= _ = _
  rw [hrecord, finalStage_eq]
  by_cases hv : f.vars = []
  · have hvars : (m.lower c f).value.vars = [] := by rw [lower_vars, hv]; rfl
    have hall := m.agree_setAll_vars c f (by rw [varValues, hvars]; rfl) hagree
    rw [m.varsStage_of_nil c f hv, unstaged, hvars]
    exact (bind_pure _).trans (m.lastStage_apply c f _ hall)
  · obtain ⟨fields, hfields, hagree⟩ := m.varsStage_apply c f
      (Convention.varsRecord ++ "_" ++ f.digest) (m.factoryPlan c f).paramsShape.typeName hagree
    rw [m.varsStage_of_ne_nil c f hv, unstaged]
    show (varsStage _ _ _).apply (.record _ record) >>= _ = _
    rw [hfields, bind_assoc]
    cases hvalues : (m.lower c f).value.vars.mapM fun v => do
        return (v.1, ← v.2.eval (Bindings.set scope f.sourceParam s)) with
    | error e => rfl
    | ok values =>
      have hall := m.agree_setAll_vars c f hvalues hagree
      exact (bind_pure _).trans (m.lastStage_apply c f _ hall)

end

/-- The stages of a factory, applied to a value, are the plain evaluation in the scope that
the binding of the arguments left. -/
theorem applyStages_simulates {c : Compilation} {source target : Descriptor}
    {declared : DeclaredAt} {method : Method} {f : Factory}
    (hf : Factory.ofMethod c source target declared method = .ok f) (m : Mapping) {args : Args}
    {stages : List Lambda} (hb : (m.assemble c f (m.lower c f).value).bind args = .ok stages) :
    ∃ scope, (m.assemble c f (m.lower c f).value).boundScope args = .ok scope ∧
      ∀ s, applyStages stages s = m.unstaged c f scope s := by
  rw [FactoryPlan.bind] at hb
  cases hscope : (m.assemble c f (m.lower c f).value).boundScope args with
  | error e => rw [hscope] at hb; cases hb
  | ok scope =>
    rw [hscope] at hb
    cases hb
    have hbound := m.boundScope_binds c (Factory.ofMethod_describes hf).scoped args
    exact ⟨scope, rfl, m.applyStages_eq_unstaged c f (hbound.after scope hscope)⟩

end Mapping

namespace Sample

/-- The names of the stages, and a variable with the name of the flag. -/
def clashing : Method :=
  method "_params" "x"
    [given "y" (text "a"), given "x" (.binary place (field "_params" "name") .add (name "y"))]
    (name "x")

def mapping : Mapping := (Mapping.build compilation user target ⟨0, place⟩).value

end Sample

theorem Mapping.applyStages_simulates_clashing :
    ∃ f stages, Factory.ofMethod Sample.compilation Sample.user Sample.target ⟨0, Sample.place⟩
        Sample.clashing = .ok f ∧
      (Sample.mapping.assemble Sample.compilation f
        (Sample.mapping.lower Sample.compilation f).value).bind [some (.bool true)] = .ok stages ∧
      ∃ scope, (Sample.mapping.assemble Sample.compilation f
          (Sample.mapping.lower Sample.compilation f).value).boundScope [some (.bool true)] =
            .ok scope ∧
        ∀ s, applyStages stages s = Sample.mapping.unstaged Sample.compilation f scope s :=
  ⟨_, _, rfl, rfl, Mapping.applyStages_simulates (rfl : Factory.ofMethod Sample.compilation
    Sample.user Sample.target ⟨0, Sample.place⟩ Sample.clashing = .ok _) Sample.mapping rfl⟩

end StagedMapping
