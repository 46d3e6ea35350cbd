import StagedMapping.Proofs.ParsedNames

/-! How the expressions of a source are grouped. Every expression in a source that can be read
was read by the levels of operators, so its operands fit the registry of operators, everywhere in
it (`Expr.Written.grouped`). The one exception are comparisons: the registry lets them not
associate, and the levels chain them to the left (`Module.operands_grouped`). -/
namespace StagedMapping.Source
open Operator (Side)

/-! ### Expressions of a module -/

namespace Statement.Written
variable {s t : Statement}

theorem within (hpart : t.Within s) (h : s.Written) : t.Written := by
  induction hpart with
  | self => exact h
  | body ht _ ih => cases h with | branch _ hbody => exact ih (hbody _ ht)
  | other ho ht _ ih => cases h with | branch _ _ _ hbodies => exact ih (hbodies _ ho _ ht)
  | otherwise ht _ ih => cases h with | branch _ _ _ _ hotherwise => exact ih (hotherwise _ rfl _ ht)
  | loop ht _ ih => cases h with | loop _ hbody => exact ih (hbody _ ht)

theorem expressions (h : s.Written) : ∀ e ∈ s.expressions, e.Written := by
  intro e he
  cases h with
  | letIn hbindings =>
    obtain ⟨b, hb, hv⟩ := List.mem_filterMap.1 he
    exact (hbindings b hb).value e hv
  | assign hvalue | expr hvalue | loop hvalue => exact List.mem_singleton.1 he ▸ hvalue
  | branch hcondition _ hothers =>
    rcases List.mem_cons.1 he with rfl | he
    · exact hcondition
    · obtain ⟨o, ho, rfl⟩ := List.mem_map.1 he
      exact hothers o ho
  | ret hvalue => exact hvalue e (Option.mem_toList.1 he)
  | pass => cases he

end Statement.Written

namespace Module

/-- The expression stands in a default of a parameter or in a statement of a body, at whatever
depth. -/
inductive Contains (m : Module) (part : Expr) : Prop where
  | default {c : Class} {f : Method} {p : Param} {e : Expr} (hc : c ∈ m.classes)
    (hf : f ∈ c.methods) (hp : p ∈ f.params) (he : p.default = some e) (h : part.Within e)
  | body {c : Class} {f : Method} {body : List Statement} {s t : Statement} {e : Expr}
    (hc : c ∈ m.classes) (hf : f ∈ c.methods) (hb : f.body = some body) (hs : s ∈ body)
    (ht : t.Within s) (he : e ∈ t.expressions) (h : part.Within e)

theorem Contains.written {source : String} {m : Module} {e : Expr} (he : m.Contains e)
    (h : parse source = .ok m) : e.Written := by
  cases he with
  | default hc hf hp he hpart =>
    exact (((((classes_named h _ hc).methods _ hf).params _ hp).default _ he)).within hpart
  | body hc hf hb hs ht he hpart =>
    have written := ((classes_named h _ hc).methods _ hf).body _ hb _ hs
    exact ((written.within ht).expressions _ he).within hpart

/-- **Operators group as the registry says**, with one exception: the operands of every operator
in a source have operators that the registry lets them have, unless it is a comparison to the
left of another one. A choice is never an operand without parentheses. -/
theorem operands_grouped {source : String} {m : Module} (h : parse source = .ok m) {e : Expr}
    (he : m.Contains e) {side : Side} {x : Expr} (hx : (side, x) ∈ e.operands) :
    x.isChoice = false ∧ ∀ o p, e.operator? = some o → x.operator? = some p →
      (o.Takes side p ↔ ¬ o.Chains side p) := by
  obtain ⟨choice, fits⟩ := (he.written h).grouped e .self _ hx
  refine ⟨choice, fun o p ho hp => ⟨fun takes chains => chains.not_takes takes, fun apart => ?_⟩⟩
  exact (fits o ho p hp).resolve_right apart

/-! ### Returned expressions -/

/-- What the only method of the only class returns, if that is all it does. -/
def returned? (m : Module) : Option Expr :=
  match m.classes with
  | [c] =>
    match c.methods with
    | [f] =>
      match f.body with
      | some [.ret _ value] => value
      | _ => none
    | _ => none
  | _ => none

theorem contains_of_returned? {m : Module} {e : Expr} (h : m.returned? = some e) :
    m.Contains e := by
  unfold returned? at h
  split at h
  case h_2 => cases h
  case h_1 c hc =>
  split at h
  case h_2 => cases h
  case h_1 f hf =>
  split at h
  case h_2 => cases h
  case h_1 span value hb =>
  subst h
  exact .body (by rw [hc]; exact List.mem_singleton_self c)
    (by rw [hf]; exact List.mem_singleton_self f) hb (List.mem_singleton_self _) .self
    (List.mem_singleton_self e) .self

/-- The outermost operator of the returned expression, and those of its operands. -/
def returnedGrouping? (source : String) :
    Option (Option Operator × List (Side × Option Operator)) :=
  match parse source with
  | .ok m => m.returned?.map fun e => (e.operator?, e.operands.map fun x => (x.1, x.2.operator?))
  | .error _ => none

theorem exists_operand {source : String} {o p : Option Operator} {side : Side}
    {more : List (Side × Option Operator)}
    (h : returnedGrouping? source = some (o, (side, p) :: more)) :
    ∃ m e x, parse source = .ok m ∧ m.Contains e ∧ (side, x) ∈ e.operands ∧
      e.operator? = o ∧ x.operator? = p := by
  unfold returnedGrouping? at h
  split at h
  case h_2 => cases h
  case h_1 m parsed =>
  obtain ⟨e, returned, grouping⟩ := Option.map_eq_some_iff.1 h
  obtain ⟨operator, operands⟩ := Prod.mk.inj grouping
  obtain ⟨⟨_, x⟩, rest, hx, operand, -⟩ := List.map_eq_cons_iff.1 operands
  cases operand
  refine ⟨m, e, x, parsed, contains_of_returned? returned, ?_, operator, rfl⟩
  rw [hx]
  exact List.mem_cons_self

/-- A chain of differences is grouped to the left. -/
theorem operands_grouped_differences : ∃ m e x,
    parse "class A:\n    def f(x: B) -> A:\n        return a - b - c * d\n" = .ok m ∧
      m.Contains e ∧ (Side.left, x) ∈ e.operands ∧ e.operator? = some .minus ∧
      x.operator? = some .minus ∧ x.isChoice = false ∧
      ∀ o p, e.operator? = some o → x.operator? = some p →
        (o.Takes .left p ↔ ¬ o.Chains .left p) := by
  obtain ⟨m, e, x, parsed, he, hx, ho, hp⟩ := exists_operand (p := some .minus)
    (by decide +kernel : returnedGrouping?
      "class A:\n    def f(x: B) -> A:\n        return a - b - c * d\n" =
        some (some .minus, [(.left, some .minus), (.right, some .star)]))
  exact ⟨m, e, x, parsed, he, hx, ho, hp, operands_grouped parsed he hx⟩

/-- A chain of comparisons is grouped to the left too, although they do not associate. -/
theorem comparisons_chained : ∃ m e x,
    parse "class A:\n    def f(x: B) -> A:\n        return a < b < c\n" = .ok m ∧
      m.Contains e ∧ (Side.left, x) ∈ e.operands ∧ e.operator? = some .lt ∧
      x.operator? = some .lt ∧ ¬ Operator.lt.Takes .left .lt := by
  obtain ⟨m, e, x, parsed, he, hx, ho, hp⟩ := exists_operand (p := some .lt)
    (by decide +kernel : returnedGrouping?
      "class A:\n    def f(x: B) -> A:\n        return a < b < c\n" =
        some (some .lt, [(.left, some .lt), (.right, none)]))
  exact ⟨m, e, x, parsed, he, hx, ho, hp, by decide⟩

end Module
end StagedMapping.Source
