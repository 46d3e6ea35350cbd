import StagedMapping.Proofs.PlanPhrases

/-! The plan in generated code is the plan. A phrase determines what it is the phrase of, and
what it prints determines the phrase, so two plans with the same code are the same plan
(`planCode_faithful`). Only a double that is not finite has no code. -/
namespace StagedMapping.Generated.Phrase
open Number

/-! ### Parts of phrases -/

theorem sign_inj {s t : Sign} : sign s = sign t ↔ s.1 = t.1 := by
  rw [sign, sign, Node.leaf.injEq, Token.symbol.injEq]

theorem called_inj {k w k' w' : Sign} {args args' : List Phrase} :
    called [k, w] args = called [k', w'] args' ↔ k.1 = k'.1 ∧ w.1 = w'.1 ∧ args = args' := by
  simp [called, pathNodes, sign_inj]

theorem path_inj {k w k' w' : Sign} : path [k, w] = path [k', w'] ↔ k.1 = k'.1 ∧ w.1 = w'.1 := by
  simp [path, pathNodes, sign_inj]

theorem path_ne_called {k w k' w' : Sign} {args : List Phrase} :
    path [k, w] ≠ called [k', w'] args := by
  simp [path, called, pathNodes]

theorem sent_inj {p q : Phrase} {m n : Sign} {args args' : List Phrase} :
    sent p m args = sent q n args' ↔ p = q ∧ m.1 = n.1 ∧ args = args' := by
  constructor
  · intro h
    obtain ⟨first, more⟩ := Prod.mk.inj h
    obtain ⟨more, method⟩ := List.append_inj' more rfl
    simp [sign_inj] at method
    exact ⟨Prod.ext first more, method⟩
  · rintro ⟨rfl, method, rfl⟩
    rw [sent, sent, sign_inj.2 method]

/-- A path with arguments is not a method called on something: other signs come last. -/
theorem called_ne_sent {k w m : Sign} {args args' : List Phrase} {p : Phrase} :
    called [k, w] args ≠ sent p m args' := by
  intro h
  have nodes : [sign ⟨"mapforge_runtime", rfl⟩, sign ⟨"::", rfl⟩, sign k] ++
      [sign ⟨"::", rfl⟩, sign w, .group .round args] =
        p.2 ++ [sign ⟨".", rfl⟩, sign m, .group .round args'] := (Prod.mk.inj h).2
  have last := (List.append_inj' nodes rfl).2
  exact absurd (sign_inj.1 (List.cons.inj last).1) (by decide)

theorem string_inj {s t : String} : string s = string t ↔ s = t := by
  rw [string, string, Prod.mk.injEq, Node.leaf.injEq, Token.string.injEq, and_iff_left rfl]

theorem owned_inj {s t : String} : owned s = owned t ↔ s = t := by
  rw [owned, owned, sent_inj, string_inj, and_iff_left ⟨rfl, rfl⟩]

theorem sequence_inj {items items' : List Phrase} :
    sequence items = sequence items' ↔ items = items' := by
  simp [sequence]

theorem pair_inj {p q p' q' : Phrase} : pair p q = pair p' q' ↔ p = p' ∧ q = q' := by
  simp [pair]

theorem optional_inj {o o' : Option Phrase} : optional o = optional o' ↔ o = o' := by
  cases o <;> cases o' <;> simp [optional, sign_inj]

theorem field_inj {s : Sign} {p q : Phrase} : field s p = field s q ↔ p = q := by
  simp [field, Prod.ext_iff]

theorem withFields_inj {names : List Sign} {fields fields' : List Phrase} :
    withFields names fields = withFields names fields' ↔ fields = fields' := by
  simp [withFields]

theorem called_ne_withFields {k w k' w' : Sign} {args fields : List Phrase} :
    called [k, w] args ≠ withFields [k', w'] fields := by
  simp [called, withFields, pathNodes]

theorem signed_inj {b b' : Bool} {t u : Token} {h : t.isPlain = true} {h' : u.isPlain = true} :
    signed b t h = signed b' u h' ↔ b = b' ∧ t = u := by
  cases b <;> cases b' <;> simp [signed]

/-! ### Values -/

theorem toInt_inj_of_abs {n m : Int64} (sign : decide (n.toInt < 0) = decide (m.toInt < 0))
    (size : n.toInt.natAbs = m.toInt.natAbs) : n = m := by
  have negative : n.toInt < 0 ↔ m.toInt < 0 := decide_eq_decide.1 sign
  refine Int64.toInt_inj.1 ?_
  omega

mutual

theorem ofValue_inj : ∀ v w : Value, (∀ x ∈ v.floats, isUnbounded x = false) →
    (∀ x ∈ w.floats, isUnbounded x = false) → ofValue v = ofValue w → v = w
  | .none, w, _, _, h => by
    cases w with
    | none => rfl
    | _ => exact absurd h path_ne_called
  | .bool b, w, _, _, h => by
    cases w with
    | bool c =>
      have word := (Prod.mk.inj (List.cons.inj (called_inj.1 h).2.2).1).1
      cases b <;> cases c <;> first | rfl | exact absurd (sign_inj.1 word) (by decide)
    | none => exact absurd h.symm path_ne_called
    | _ => simp [ofValue, valueSign, called_inj] at h
  | .int n, w, _, _, h => by
    cases w with
    | int m =>
      obtain ⟨sign, size⟩ := signed_inj.1 (List.cons.inj (called_inj.1 h).2.2).1
      rw [toInt_inj_of_abs sign (Token.natural.inj size)]
    | none => exact absurd h.symm path_ne_called
    | _ => simp [ofValue, valueSign, called_inj] at h
  | .float x, w, hv, hw, h => by
    cases w with
    | float y =>
      obtain ⟨sign, size⟩ := signed_inj.1 (List.cons.inj (called_inj.1 h).2.2).1
      have hx : isUnbounded x = false := hv x (List.mem_singleton_self x)
      have hy : isUnbounded y = false := hw y (List.mem_singleton_self y)
      rw [eq_of_abs_eq hx hy sign (Token.float.inj size)]
    | none => exact absurd h.symm path_ne_called
    | _ => simp [ofValue, valueSign, called_inj] at h
  | .str s, w, _, _, h => by
    cases w with
    | str t => rw [owned_inj.1 (List.cons.inj (called_inj.1 h).2.2).1]
    | none => exact absurd h.symm path_ne_called
    | _ => simp [ofValue, valueSign, called_inj] at h
  | .list items, w, hv, hw, h => by
    cases w with
    | list items' =>
      have phrases := sequence_inj.1 (List.cons.inj (called_inj.1 h).2.2).1
      rw [ofValues_inj items items' hv hw phrases]
    | none => exact absurd h.symm path_ne_called
    | _ => simp [ofValue, valueSign, called_inj] at h
  | .record typeName fields, w, hv, hw, h => by
    cases w with
    | record typeName' fields' =>
      have parts := withFields_inj.1 (List.cons.inj (called_inj.1 h).2.2).1
      simp only [List.cons.injEq, field_inj, owned_inj, sequence_inj] at parts
      rw [parts.1, ofFields_inj fields fields' hv hw parts.2.1]
    | none => exact absurd h.symm path_ne_called
    | _ => simp [ofValue, valueSign, called_inj] at h

theorem ofValues_inj : ∀ vs ws : List Value, (∀ x ∈ Value.itemFloats vs, isUnbounded x = false) →
    (∀ x ∈ Value.itemFloats ws, isUnbounded x = false) → ofValues vs = ofValues ws → vs = ws
  | [], [], _, _, _ => rfl
  | [], _ :: _, _, _, h => by cases h
  | _ :: _, [], _, _, h => by cases h
  | v :: vs, w :: ws, hv, hw, h => by
    obtain ⟨first, rest⟩ := List.cons.inj h
    rw [Value.itemFloats, List.forall_mem_append] at hv hw
    rw [ofValue_inj v w hv.1 hw.1 first, ofValues_inj vs ws hv.2 hw.2 rest]

theorem ofFields_inj : ∀ fs gs : List (String × Value),
    (∀ x ∈ Value.fieldFloats fs, isUnbounded x = false) →
    (∀ x ∈ Value.fieldFloats gs, isUnbounded x = false) → ofFields fs = ofFields gs → fs = gs
  | [], [], _, _, _ => rfl
  | [], (_, _) :: _, _, _, h => by cases h
  | (_, _) :: _, [], _, _, h => by cases h
  | (m, v) :: fs, (n, w) :: gs, hv, hw, h => by
    obtain ⟨first, rest⟩ := List.cons.inj h
    obtain ⟨name, value⟩ := pair_inj.1 first
    rw [Value.fieldFloats, List.forall_mem_append] at hv hw
    rw [owned_inj.1 name, ofValue_inj v w hv.1 hw.1 value, ofFields_inj fs gs hv.2 hw.2 rest]

end

/-! ### Trees -/

theorem builtinSign_inj {a b : Builtin} (h : (builtinSign a).1 = (builtinSign b).1) : a = b := by
  revert h
  cases a <;> cases b <;> decide

theorem binarySign_inj {a b : BinaryOp} (h : (binarySign a).1 = (binarySign b).1) : a = b := by
  revert h
  cases a <;> cases b <;> decide

theorem unarySign_inj {a b : UnaryOp} (h : (unarySign a).1 = (unarySign b).1) : a = b := by
  revert h
  cases a <;> cases b <;> decide

mutual

theorem ofTree_inj : ∀ t u : Tree, (∀ x ∈ t.floats, isUnbounded x = false) →
    (∀ x ∈ u.floats, isUnbounded x = false) → ofTree t = ofTree u → t = u
  | .const v, u, ht, hu, h => by
    cases u with
    | const w => rw [ofValue_inj v w ht hu (List.cons.inj (called_inj.1 h).2.2).1]
    | member | call => exact absurd h called_ne_sent
    | _ => simp [ofTree, exprSign, called_inj] at h
  | .param name, u, _, _, h => by
    cases u with
    | param name' => rw [string_inj.1 (List.cons.inj (called_inj.1 h).2.2).1]
    | member | call => exact absurd h called_ne_sent
    | _ => simp [ofTree, exprSign, called_inj] at h
  | .member base name, u, ht, hu, h => by
    cases u with
    | member base' name' =>
      obtain ⟨receiver, -, args⟩ := sent_inj.1 h
      rw [ofTree_inj base base' ht hu receiver, string_inj.1 (List.cons.inj args).1]
    | call => exact absurd (sent_inj.1 h).2.1 (by decide)
    | _ => exact absurd h.symm called_ne_sent
  | .call receiver method args, u, ht, hu, h => by
    cases u with
    | call receiver' method' args' =>
      obtain ⟨receivers, -, parts⟩ := sent_inj.1 h
      simp only [List.cons.injEq, path_inj, sequence_inj] at parts
      rw [Tree.floats, List.forall_mem_append] at ht hu
      rw [ofTree_inj receiver receiver' ht.1 hu.1 receivers, builtinSign_inj parts.1.2,
        ofTrees_inj args args' ht.2 hu.2 parts.2.1]
    | member => exact absurd (sent_inj.1 h).2.1 (by decide)
    | _ => exact absurd h.symm called_ne_sent
  | .cond test yes no, u, ht, hu, h => by
    cases u with
    | cond test' yes' no' =>
      have parts := (called_inj.1 h).2.2
      simp only [List.cons.injEq] at parts
      rw [Tree.floats, List.forall_mem_append, List.forall_mem_append] at ht hu
      rw [ofTree_inj test test' ht.1 hu.1 parts.1, ofTree_inj yes yes' ht.2.1 hu.2.1 parts.2.1,
        ofTree_inj no no' ht.2.2 hu.2.2 parts.2.2.1]
    | member | call => exact absurd h called_ne_sent
    | _ => simp [ofTree, exprSign, called_inj] at h
  | .binary op lhs rhs, u, ht, hu, h => by
    cases u with
    | binary op' lhs' rhs' =>
      have parts := (called_inj.1 h).2.2
      simp only [List.cons.injEq, path_inj] at parts
      rw [Tree.floats, List.forall_mem_append] at ht hu
      rw [binarySign_inj parts.1.2, ofTree_inj lhs lhs' ht.1 hu.1 parts.2.1,
        ofTree_inj rhs rhs' ht.2 hu.2 parts.2.2.1]
    | member | call => exact absurd h called_ne_sent
    | _ => simp [ofTree, exprSign, called_inj] at h
  | .unary op operand, u, ht, hu, h => by
    cases u with
    | unary op' operand' =>
      have parts := (called_inj.1 h).2.2
      simp only [List.cons.injEq, path_inj] at parts
      rw [unarySign_inj parts.1.2, ofTree_inj operand operand' ht hu parts.2.1]
    | member | call => exact absurd h called_ne_sent
    | _ => simp [ofTree, exprSign, called_inj] at h
  | .init typeName bindings, u, ht, hu, h => by
    cases u with
    | init typeName' bindings' =>
      have parts := (called_inj.1 h).2.2
      simp only [List.cons.injEq, string_inj, sequence_inj] at parts
      rw [parts.1, ofBindings_inj bindings bindings' ht hu parts.2.1]
    | member | call => exact absurd h called_ne_sent
    | _ => simp [ofTree, exprSign, called_inj] at h

theorem ofTrees_inj : ∀ ts us : List Tree, (∀ x ∈ Tree.argFloats ts, isUnbounded x = false) →
    (∀ x ∈ Tree.argFloats us, isUnbounded x = false) → ofTrees ts = ofTrees us → ts = us
  | [], [], _, _, _ => rfl
  | [], _ :: _, _, _, h => by cases h
  | _ :: _, [], _, _, h => by cases h
  | t :: ts, u :: us, ht, hu, h => by
    obtain ⟨first, rest⟩ := List.cons.inj h
    rw [Tree.argFloats, List.forall_mem_append] at ht hu
    rw [ofTree_inj t u ht.1 hu.1 first, ofTrees_inj ts us ht.2 hu.2 rest]

theorem ofBindings_inj : ∀ bs cs : List (String × Tree),
    (∀ x ∈ Tree.bindingFloats bs, isUnbounded x = false) →
    (∀ x ∈ Tree.bindingFloats cs, isUnbounded x = false) → ofBindings bs = ofBindings cs → bs = cs
  | [], [], _, _, _ => rfl
  | [], (_, _) :: _, _, _, h => by cases h
  | (_, _) :: _, [], _, _, h => by cases h
  | (m, t) :: bs, (n, u) :: cs, ht, hu, h => by
    obtain ⟨first, rest⟩ := List.cons.inj h
    obtain ⟨name, tree⟩ := pair_inj.1 first
    rw [Tree.bindingFloats, List.forall_mem_append] at ht hu
    rw [owned_inj.1 name, ofTree_inj t u ht.1 hu.1 tree, ofBindings_inj bs cs ht.2 hu.2 rest]

end

/-- A phrase that determines what it is the phrase of, as long as all doubles are finite. -/
def Determines {α : Type} (floats : α → List Float) (phrase : α → Phrase) : Prop :=
  ∀ a b : α, (∀ x ∈ floats a, isUnbounded x = false) →
    (∀ x ∈ floats b, isUnbounded x = false) → phrase a = phrase b → a = b

theorem ofLambda_inj : Determines Lambda.floats ofLambda := by
  rintro ⟨param, body⟩ ⟨param', body'⟩ ha hb h
  have parts := (called_inj.1 h).2.2
  simp only [List.cons.injEq, string_inj] at parts
  rw [parts.1, ofTree_inj body body' ha hb parts.2.1]

/-- A part that may be absent is determined as the part is. -/
theorem Determines.option {α : Type} {floats : α → List Float} {phrase : α → Phrase}
    (h : Determines floats phrase) :
    Determines (fun o : Option α => o.elim [] floats) fun o => optional (o.map phrase) := by
  intro o o' ha hb same
  have maps := optional_inj.1 same
  cases o with
  | none => exact (Option.map_eq_none_iff.1 maps.symm).symm
  | some a =>
    cases o' with
    | none => cases maps
    | some b => rw [h a b ha hb (Option.some.inj maps)]

theorem Determines.list {α : Type} {floats : α → List Float} {phrase : α → Phrase}
    (h : Determines floats phrase) (as bs : List α)
    (ha : ∀ x ∈ as.flatMap floats, isUnbounded x = false)
    (hb : ∀ x ∈ bs.flatMap floats, isUnbounded x = false)
    (same : as.map phrase = bs.map phrase) : as = bs := by
  induction as generalizing bs with
  | nil => exact (List.map_eq_nil_iff.1 same.symm).symm
  | cons a as ih =>
    cases bs with
    | nil => cases same
    | cons b bs =>
      obtain ⟨first, rest⟩ := List.cons.inj same
      rw [List.flatMap_cons, List.forall_mem_append] at ha hb
      rw [h a b ha.1 hb.1 first, ih bs ha.2 hb.2 rest]

/-! ### Residual statements -/

mutual

theorem ofResidual_inj : ∀ s t : Residual, (∀ x ∈ s.floats, isUnbounded x = false) →
    (∀ x ∈ t.floats, isUnbounded x = false) → ofResidual s = ofResidual t → s = t
  | .letIn name type value, t, hs, ht, h => by
    cases t with
    | letIn name' type' value' =>
      have parts := withFields_inj.1 h
      simp only [List.cons.injEq, field_inj, owned_inj, optional_inj] at parts
      obtain ⟨names, types, values, -⟩ := parts
      have types : type = type' := Option.map_injective (fun _ _ => owned_inj.1) types
      have values := Determines.option ofTree_inj value value' hs ht (optional_inj.2 values)
      rw [names, types, values]
    | _ => exact absurd h.symm called_ne_withFields
  | .assign name value, t, hs, ht, h => by
    cases t with
    | assign name' value' =>
      have parts := (called_inj.1 h).2.2
      simp only [List.cons.injEq, owned_inj] at parts
      rw [parts.1, ofTree_inj value value' hs ht parts.2.1]
    | letIn => exact absurd h called_ne_withFields
    | _ => simp [ofResidual, stmtSign, called_inj] at h
  | .branch test yes no, t, hs, ht, h => by
    cases t with
    | branch test' yes' no' =>
      have parts := (called_inj.1 h).2.2
      simp only [List.cons.injEq, sequence_inj] at parts
      rw [Residual.floats, List.forall_mem_append, List.forall_mem_append] at hs ht
      rw [ofTree_inj test test' hs.1 ht.1 parts.1,
        ofResiduals_inj yes yes' hs.2.1 ht.2.1 parts.2.1,
        ofResiduals_inj no no' hs.2.2 ht.2.2 parts.2.2.1]
    | letIn => exact absurd h called_ne_withFields
    | _ => simp [ofResidual, stmtSign, called_inj] at h
  | .eval value, t, hs, ht, h => by
    cases t with
    | eval value' => rw [ofTree_inj value value' hs ht (List.cons.inj (called_inj.1 h).2.2).1]
    | letIn => exact absurd h called_ne_withFields
    | _ => simp [ofResidual, stmtSign, called_inj] at h

theorem ofResiduals_inj : ∀ ss ts : List Residual,
    (∀ x ∈ Residual.blockFloats ss, isUnbounded x = false) →
    (∀ x ∈ Residual.blockFloats ts, isUnbounded x = false) → ofResiduals ss = ofResiduals ts →
      ss = ts
  | [], [], _, _, _ => rfl
  | [], _ :: _, _, _, h => by cases h
  | _ :: _, [], _, _, h => by cases h
  | s :: ss, t :: ts, hs, ht, h => by
    obtain ⟨first, rest⟩ := List.cons.inj h
    rw [Residual.blockFloats, List.forall_mem_append] at hs ht
    rw [ofResidual_inj s t hs.1 ht.1 first, ofResiduals_inj ss ts hs.2 ht.2 rest]

end

/-! ### Plans -/

theorem ofShapeField_inj : Function.Injective ofShapeField := by
  rintro ⟨name, type⟩ ⟨name', type'⟩ h
  have parts := (called_inj.1 h).2.2
  simp only [List.cons.injEq, string_inj] at parts
  rw [parts.1, parts.2.1]

theorem ofShape_inj : Function.Injective ofShape := by
  rintro ⟨typeName, fields⟩ ⟨typeName', fields'⟩ h
  have parts := withFields_inj.1 h
  simp only [List.cons.injEq, field_inj, owned_inj, sequence_inj] at parts
  rw [parts.1, (List.map_inj_right fun _ _ => @ofShapeField_inj _ _).1 parts.2.1]

theorem ofParameter_inj : Determines ParameterPlan.floats ofParameter := by
  rintro ⟨name, type, default⟩ ⟨name', type', default'⟩ ha hb h
  have parts := withFields_inj.1 h
  simp only [List.cons.injEq, field_inj, owned_inj] at parts
  rw [parts.1, parts.2.1, Determines.option ofTree_inj default default' ha hb parts.2.2.1]

theorem ofFactory_inj : Determines FactoryPlan.floats ofFactory := by
  intro f g hf hg h
  have parts := withFields_inj.1 h
  simp only [List.cons.injEq, field_inj, owned_inj, sequence_inj] at parts
  obtain ⟨declaration, digest, parameters, residuals, captures, paramsShape, varsShape, first,
    second, last, -⟩ := parts
  simp only [FactoryPlan.floats, List.forall_mem_append] at hf hg
  obtain ⟨hf₁, hf₂, hf₃, hf₄, hf₅⟩ := hf
  obtain ⟨hg₁, hg₂, hg₃, hg₄, hg₅⟩ := hg
  have parameters := Determines.list ofParameter_inj _ _ hf₁ hg₁ parameters
  have residuals := ofResiduals_inj _ _ hf₂ hg₂ residuals
  have captures := (List.map_inj_right fun _ _ => @ofShapeField_inj _ _).1 captures
  have paramsShape := ofShape_inj paramsShape
  have varsShape := Option.map_injective ofShape_inj (optional_inj.1 varsShape)
  have first := ofLambda_inj _ _ hf₃ hg₃ first
  have second := Determines.option ofLambda_inj _ _ hf₄ hg₄ second
  have last := ofLambda_inj _ _ hf₅ hg₅ last
  cases f
  cases g
  rw [FactoryPlan.mk.injEq]
  exact ⟨declaration, digest, parameters, residuals, captures, paramsShape, varsShape, first,
    second, last⟩

theorem ofPlan_inj : Determines MapPlan.floats ofPlan := by
  rintro ⟨source, target, default, factories⟩ ⟨source', target', default', factories'⟩ hp hq h
  have parts := withFields_inj.1 h
  simp only [List.cons.injEq, field_inj, owned_inj, sequence_inj] at parts
  rw [MapPlan.floats, List.forall_mem_append] at hp hq
  rw [parts.1, parts.2.1, ofLambda_inj default default' hp.1 hq.1 parts.2.2.1,
    Determines.list ofFactory_inj factories factories' hp.2 hq.2 parts.2.2.2.1]

end StagedMapping.Generated.Phrase

namespace StagedMapping.Generated
open Number Phrase

/-- There is no code exactly if a double of the plan is not finite. -/
theorem planCode_error_iff (p : MapPlan) :
    (∃ x, planCode p = .error x) ↔ ∃ x ∈ p.floats, isUnbounded x = true := by
  rw [planCode_eq, guarded]
  cases found : p.floats.find? isUnbounded with
  | none =>
    constructor
    · rintro ⟨x, h⟩
      cases h
    · rintro ⟨x, hx, unbounded⟩
      exact absurd unbounded (List.find?_eq_none.1 found x hx)
  | some x =>
    exact ⟨fun _ => ⟨x, List.mem_of_find?_eq_some found, List.find?_some found⟩, fun _ => ⟨x, rfl⟩⟩

theorem planCode_of_bounded {p : MapPlan} (hp : ∀ x ∈ p.floats, isUnbounded x = false) :
    planCode p = .ok (ofPlan p).print := by
  have none : p.floats.find? isUnbounded = Option.none :=
    List.find?_eq_none.2 fun x hx => by rw [hp x hx]; exact nofun
  rw [planCode_eq, guarded, none]

/-- Every plan has code unless a double in it is not finite, and plans with the same code are
the same plan. A literal is a token with the value that it denotes, a double a token with its
size, and doubles are compared by their bits. -/
theorem planCode_faithful :
    (∀ p, (∃ x, planCode p = .error x) ↔ ∃ x ∈ p.floats, isUnbounded x = true) ∧
      ∀ p q, (∀ x ∈ p.floats, isUnbounded x = false) → (∀ x ∈ q.floats, isUnbounded x = false) →
        ∃ c d, planCode p = .ok c ∧ planCode q = .ok d ∧ (c = d → p = q) := by
  refine ⟨planCode_error_iff, fun p q hp hq => ?_⟩
  refine ⟨_, _, planCode_of_bounded hp, planCode_of_bounded hq, fun same => ?_⟩
  exact ofPlan_inj p q hp hq (print_inj same)

/-- The plan of a mapping to a class with one field, an integer and a double. -/
def constantPlan (x : Float) : MapPlan :=
  ⟨"A", "B", ⟨"x", .init "B" [("n", .const (.int Int64.minValue)), ("d", .const (.float x))]⟩, []⟩

def negativeZero : Float := .ofBits 0x8000000000000000

def positiveZero : Float := .ofBits 0

theorem zeros_have_distinct_codes :
    (∀ x ∈ (constantPlan negativeZero).floats, isUnbounded x = false) ∧
      (∀ x ∈ (constantPlan positiveZero).floats, isUnbounded x = false) ∧
        ∃ c d, planCode (constantPlan negativeZero) = .ok c ∧
          planCode (constantPlan positiveZero) = .ok d ∧ c ≠ d := by
  have negative : ∀ x ∈ (constantPlan negativeZero).floats, isUnbounded x = false :=
    List.forall_mem_singleton.2 (by decide)
  have positive : ∀ x ∈ (constantPlan positiveZero).floats, isUnbounded x = false :=
    List.forall_mem_singleton.2 (by decide)
  obtain ⟨c, d, hc, hd, same⟩ := planCode_faithful.2 _ _ negative positive
  refine ⟨negative, positive, c, d, hc, hd, fun h => ?_⟩
  have floats : [negativeZero] = [positiveZero] := congrArg MapPlan.floats (same h)
  exact absurd (congrArg Float.toBits (List.cons.inj floats).1) (by decide)

end StagedMapping.Generated
