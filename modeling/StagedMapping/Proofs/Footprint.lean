import StagedMapping.Proofs.Classification
import StagedMapping.Proofs.DirectEvaluation

/-! Footprints of bodies as they are written. An expression depends on the names that it
reads, so a statement runs alike in two scopes that agree on its reads, and what it leaves
agrees where the scopes did (`Source.Statement.exec_alike`); and it leaves a name as it was
that it neither declares, at whatever depth, nor assigns (`Source.Statement.exec_keeps`). -/
namespace StagedMapping

/-! ### What an evaluation depends on -/

namespace Source
variable {types : TypeExpr → TypeRef} {a b : Scope}

mutual

/-- The value of an expression depends on the names that it reads only. -/
theorem Expr.eval_congr : (e : Expr) →
    (∀ r ∈ e.reads, Bindings.get? a r.text = Bindings.get? b r.text) →
    e.eval types a = e.eval types b
  | .ident span name, h => by
    have hn := h ⟨name, span⟩ (List.mem_singleton.2 rfl)
    simp only at hn
    rw [Expr.eval, Expr.eval, hn]
  | .literal _ _, _ => rfl
  | .field _ base name, h => by rw [Expr.eval, Expr.eval, Expr.eval_congr base h]
  | .method _ receiver name args, h => by
    have hr := Expr.eval_congr receiver fun r hr => h r (List.mem_append_left _ hr)
    have ha := Expr.listEval_congr args fun r hr => h r (List.mem_append_right _ hr)
    rw [Expr.eval, Expr.eval, hr, ha]
  | .call .., _ => rfl
  | .choice _ value condition otherwise, h => by
    have hv := Expr.eval_congr value fun r hr => h r (by simp [Expr.reads, hr])
    have hc := Expr.eval_congr condition fun r hr => h r (by simp [Expr.reads, hr])
    have ho := Expr.eval_congr otherwise fun r hr => h r (by simp [Expr.reads, hr])
    rw [Expr.eval, Expr.eval, hv, hc, ho]
  | .binary _ lhs op rhs, h => by
    have hl := Expr.eval_congr lhs fun r hr => h r (List.mem_append_left _ hr)
    have hr := Expr.eval_congr rhs fun r hr => h r (List.mem_append_right _ hr)
    cases op <;> simp only [Expr.eval, hl, hr]
  | .unary _ op operand, h => by
    have ho := Expr.eval_congr operand h
    cases op <;> simp only [Expr.eval, ho]
  | .construct _ type args, h => by
    rw [Expr.eval, Expr.eval, Argument.listEval_congr args [] h]
  | .paren _ inner, h => Expr.eval_congr inner h

theorem Expr.listEval_congr : (es : List Expr) →
    (∀ r ∈ Expr.listReads es, Bindings.get? a r.text = Bindings.get? b r.text) →
    Expr.listEval types a es = Expr.listEval types b es
  | [], _ => rfl
  | e :: rest, h => by
    have he := Expr.eval_congr e fun r hr => h r (List.mem_append_left _ hr)
    have hrest := Expr.listEval_congr rest fun r hr => h r (List.mem_append_right _ hr)
    rw [Expr.listEval, Expr.listEval, he, hrest]

theorem Argument.listEval_congr : (args : List Argument) → (fields : List (String × Value)) →
    (∀ r ∈ Argument.listReads args, Bindings.get? a r.text = Bindings.get? b r.text) →
    Argument.listEval types a fields args = Argument.listEval types b fields args
  | [], _, _ => rfl
  | .positional _ :: rest, fields, h =>
    Argument.listEval_congr rest fields fun r hr => h r (List.mem_append_right _ hr)
  | .named name value :: rest, fields, h => by
    have hv := Expr.eval_congr value fun r hr => h r (List.mem_append_left _ hr)
    have hrest (fields : List (String × Value)) :=
      Argument.listEval_congr rest fields fun r hr => h r (List.mem_append_right _ hr)
    simp only [Argument.listEval, hv, hrest]

end

end Source

/-- Two runs that fail alike, or leave scopes that agree off some names. -/
inductive Eval.Alike (off : List String) : Eval Scope → Eval Scope → Prop where
  | ok {a b : Scope} (h : ∀ n, n ∉ off → Bindings.get? a n = Bindings.get? b n) :
    Alike off (.ok a) (.ok b)
  | error (e : EvalError) : Alike off (.error e) (.error e)

namespace Eval

theorem Alike.bind {off : List String} {x y : Eval Scope} {f g : Scope → Eval Scope}
    (h : Alike off x y)
    (hf : ∀ a b, (∀ n, n ∉ off → Bindings.get? a n = Bindings.get? b n) → Alike off (f a) (g b)) :
    Alike off (x >>= f) (y >>= g) := by
  cases h with
  | ok h => exact hf _ _ h
  | error e => exact .error e

/-- Runs that go on from one result. -/
theorem Alike.of_bind {α : Type} {off : List String} (x : Eval α) {f g : α → Eval Scope}
    (h : ∀ v, Alike off (f v) (g v)) : Alike off (x >>= f) (x >>= g) := by
  cases x with
  | ok v => exact h v
  | error e => exact .error e

end Eval

theorem Bindings.set_agree_off {α : Type} {off : List String} {a b : List (String × α)}
    (h : ∀ n, n ∉ off → get? a n = get? b n) (name : String) (value : α) :
    ∀ n, n ∉ off → get? (set a name value) n = get? (set b name value) n := by
  intro n hn
  rw [get?_set, get?_set, h n hn]

namespace Source
variable {types : TypeExpr → TypeRef} {off : List String} {a b : Scope}

theorem Binding.initial_congr {x : Binding}
    (h : ∀ r ∈ optionalReads x.value, Bindings.get? a r.text = Bindings.get? b r.text) :
    x.initial types a = x.initial types b := by
  obtain ⟨name, type, value⟩ := x
  cases value with
  | none => rfl
  | some e => exact e.eval_congr h

theorem Binding.exec_alike {x : Binding} (hr : ∀ r ∈ optionalReads x.value, r.text ∉ off)
    (h : ∀ n, n ∉ off → Bindings.get? a n = Bindings.get? b n) :
    Eval.Alike off (x.exec types a) (x.exec types b) := by
  rw [Binding.exec, Binding.exec, Binding.initial_congr fun r hm => h _ (hr r hm)]
  exact Eval.Alike.of_bind _ fun v => .ok (Bindings.set_agree_off h _ _)

theorem bindings_alike {bs : List Binding}
    (hr : ∀ r ∈ bs.flatMap fun x => optionalReads x.value, r.text ∉ off)
    (h : ∀ n, n ∉ off → Bindings.get? a n = Bindings.get? b n) :
    Eval.Alike off (bs.foldlM (Binding.exec types) a) (bs.foldlM (Binding.exec types) b) := by
  induction bs generalizing a b with
  | nil => exact .ok h
  | cons x rest ih =>
    rw [List.foldlM_cons, List.foldlM_cons]
    refine (Binding.exec_alike (fun r hm => hr r ?_) h).bind fun a b h => ih (fun r hm => hr r ?_) h
    · exact List.mem_append_left _ hm
    · exact List.mem_append_right _ hm

/-- The two ways of a branch. -/
theorem branch_alike {condition : Expr} (hr : ∀ r ∈ condition.reads, r.text ∉ off)
    (h : ∀ n, n ∉ off → Bindings.get? a n = Bindings.get? b n) {y y' n n' : Eval Scope}
    (hy : Eval.Alike off y y') (hn : Eval.Alike off n n') :
    Eval.Alike off
      (condition.eval types a >>= fun
        | .bool true => y
        | .bool false => n
        | v => v.mismatch "if condition" "bool")
      (condition.eval types b >>= fun
        | .bool true => y'
        | .bool false => n'
        | v => v.mismatch "if condition" "bool") := by
  rw [condition.eval_congr fun r hm => h _ (hr r hm)]
  refine Eval.Alike.of_bind _ fun v => ?_
  split
  · exact hy
  · exact hn
  · exact .error _

mutual

/-- A statement that reads none of the names runs alike where the scopes agree off them. -/
theorem Statement.exec_alike {a b : Scope}
    (h : ∀ n, n ∉ off → Bindings.get? a n = Bindings.get? b n) : (s : Statement) →
    (∀ r ∈ s.reads, r.text ∉ off) → Eval.Alike off (s.exec types a) (s.exec types b)
  | .letIn _ bs, hr => bindings_alike hr h
  | .assign _ target value, hr => by
    have ht := hr target List.mem_cons_self
    have hv : value.eval types a = value.eval types b :=
      value.eval_congr fun r hm => h _ (hr r (List.mem_cons_of_mem _ hm))
    rw [Statement.exec, Statement.exec, hv]
    refine Eval.Alike.of_bind _ fun v => ?_
    rw [Residual.change, Residual.change, h _ ht]
    split
    · exact .ok (Bindings.set_agree_off h _ _)
    · exact .error _
  | .expr _ value, hr => by
    rw [Statement.exec, Statement.exec, value.eval_congr fun r hm => h _ (hr r hm)]
    exact Eval.Alike.of_bind _ fun _ => .ok h
  | .branch _ condition body others last, hr => by
    simp only [Statement.reads, List.mem_append] at hr
    exact branch_alike (fun r hm => hr r (.inl (.inl (.inl hm)))) h
      (blockExec_alike h body fun r hm => hr r (.inl (.inl (.inr hm))))
      (othersExec_alike h (otherwiseExec_alike h last fun r hm => hr r (.inr hm)) others
        fun r hm => hr r (.inl (.inr hm)))
  | .loop .., _ => .error _
  | .ret .., _ => .error _
  | .pass _, _ => .ok h

theorem blockExec_alike {a b : Scope}
    (h : ∀ n, n ∉ off → Bindings.get? a n = Bindings.get? b n) : (body : List Statement) →
    (∀ r ∈ blockReads body, r.text ∉ off) →
    Eval.Alike off (blockExec types a body) (blockExec types b body)
  | [], _ => .ok h
  | s :: rest, hr => by
    have hs := Statement.exec_alike h s fun r hm => hr r (List.mem_append_left _ hm)
    rw [blockExec, blockExec]
    exact hs.bind fun a b h => blockExec_alike h rest fun r hm => hr r (List.mem_append_right _ hm)

theorem othersExec_alike {a b : Scope}
    (h : ∀ n, n ∉ off → Bindings.get? a n = Bindings.get? b n) {last last' : Eval Scope}
    (hl : Eval.Alike off last last') : (others : List (Expr × List Statement)) →
    (∀ r ∈ othersReads others, r.text ∉ off) →
    Eval.Alike off (othersExec types a last others) (othersExec types b last' others)
  | [], _ => hl
  | (condition, body) :: rest, hr => by
    simp only [othersReads, List.mem_append] at hr
    exact branch_alike (fun r hm => hr r (.inl (.inl hm))) h
      (blockExec_alike h body fun r hm => hr r (.inl (.inr hm)))
      (othersExec_alike h hl rest fun r hm => hr r (.inr hm))

theorem otherwiseExec_alike {a b : Scope}
    (h : ∀ n, n ∉ off → Bindings.get? a n = Bindings.get? b n) :
    (last : Option (List Statement)) → (∀ r ∈ otherwiseReads last, r.text ∉ off) →
    Eval.Alike off (otherwiseExec types a last) (otherwiseExec types b last)
  | none, _ => .ok h
  | some body, hr => blockExec_alike h body hr

end
end Source

/-! ### What a run leaves as it was -/

/-- A name has the value that it had before, if the run does not fail. -/
def Eval.Keeps (n : String) (before : Scope) (x : Eval Scope) : Prop :=
  ∀ after, x = .ok after → Bindings.get? after n = Bindings.get? before n

namespace Eval
variable {n : String} {before : Scope}

theorem keeps_ok : Keeps n before (.ok before) := fun _ h => by cases h; rfl

theorem keeps_error (e : EvalError) : Keeps n before (.error e) := nofun

theorem keeps_set {name : String} (h : name ≠ n) (v : Value) :
    Keeps n before (.ok (Bindings.set before name v)) := by
  intro after ha
  cases ha
  exact Bindings.get?_set_other before v h

theorem Keeps.of_bind {α : Type} (x : Eval α) {f : α → Eval Scope} (h : ∀ v, Keeps n before (f v)) :
    Keeps n before (x >>= f) := by
  cases x with
  | ok v => exact h v
  | error e => exact keeps_error e

theorem Keeps.bind {x : Eval Scope} {f : Scope → Eval Scope} (h : Keeps n before x)
    (hf : ∀ between, Keeps n between (f between)) : Keeps n before (x >>= f) := by
  cases x with
  | ok between => exact fun after ha => (hf between after ha).trans (h between rfl)
  | error e => exact keeps_error e

end Eval

namespace Source
variable {types : TypeExpr → TypeRef} {n : String}

theorem Binding.exec_keeps {scope : Scope} {x : Binding} (h : x.name.text ≠ n) :
    Eval.Keeps n scope (x.exec types scope) :=
  Eval.Keeps.of_bind _ fun _ => Eval.keeps_set h _

theorem bindings_keep {scope : Scope} {bs : List Binding}
    (h : n ∉ bs.map (·.name.text)) :
    Eval.Keeps n scope (bs.foldlM (Binding.exec types) scope) := by
  induction bs generalizing scope with
  | nil => exact Eval.keeps_ok
  | cons x rest ih =>
    rw [List.map_cons, List.mem_cons, not_or] at h
    rw [List.foldlM_cons]
    exact (Binding.exec_keeps (Ne.symm h.1)).bind fun _ => ih h.2

theorem branch_keeps {scope : Scope} (condition : Expr) {yes no : Eval Scope}
    (hy : Eval.Keeps n scope yes) (hn : Eval.Keeps n scope no) :
    Eval.Keeps n scope (condition.eval types scope >>= fun
      | .bool true => yes
      | .bool false => no
      | v => v.mismatch "if condition" "bool") := by
  refine Eval.Keeps.of_bind _ fun v => ?_
  split
  · exact hy
  · exact hn
  · exact Eval.keeps_error _

mutual

/-- A statement leaves a name as it was that it neither declares nor assigns. -/
theorem Statement.exec_keeps {scope : Scope} : (s : Statement) → n ∉ s.declared →
    n ∉ s.assigned.map (·.text) → Eval.Keeps n scope (s.exec types scope)
  | .letIn _ bs, hd, _ => bindings_keep hd
  | .assign _ target value, _, ha => by
    have ht : target.text ≠ n := fun h => ha (List.mem_singleton.2 h.symm)
    rw [Statement.exec]
    refine Eval.Keeps.of_bind _ fun v => ?_
    rw [Residual.change]
    split
    · exact Eval.keeps_set ht v
    · exact Eval.keeps_error _
  | .expr _ value, _, _ => by
    rw [Statement.exec]
    exact Eval.Keeps.of_bind _ fun _ => Eval.keeps_ok
  | .branch _ condition body others last, hd, ha => by
    simp only [Statement.declared, Statement.assigned, List.map_append, List.mem_append,
      not_or] at hd ha
    exact branch_keeps condition (blockExec_keeps body hd.1.1 ha.1.1)
      (othersExec_keeps (otherwiseExec_keeps last hd.2 ha.2) others hd.1.2 ha.1.2)
  | .loop .., _, _ => Eval.keeps_error _
  | .ret .., _, _ => Eval.keeps_error _
  | .pass _, _, _ => Eval.keeps_ok

theorem blockExec_keeps {scope : Scope} : (body : List Statement) → n ∉ blockDeclared body →
    n ∉ (blockAssigned body).map (·.text) → Eval.Keeps n scope (blockExec types scope body)
  | [], _, _ => Eval.keeps_ok
  | s :: rest, hd, ha => by
    simp only [blockDeclared, blockAssigned, List.map_append, List.mem_append, not_or] at hd ha
    rw [blockExec]
    exact (Statement.exec_keeps s hd.1 ha.1).bind fun _ => blockExec_keeps rest hd.2 ha.2

theorem othersExec_keeps {scope : Scope} {last : Eval Scope} (hl : Eval.Keeps n scope last) :
    (others : List (Expr × List Statement)) → n ∉ othersDeclared others →
    n ∉ (othersAssigned others).map (·.text) →
    Eval.Keeps n scope (othersExec types scope last others)
  | [], _, _ => hl
  | (condition, body) :: rest, hd, ha => by
    simp only [othersDeclared, othersAssigned, List.map_append, List.mem_append, not_or] at hd ha
    exact branch_keeps condition (blockExec_keeps body hd.1 ha.1)
      (othersExec_keeps hl rest hd.2 ha.2)

theorem otherwiseExec_keeps {scope : Scope} : (last : Option (List Statement)) →
    n ∉ otherwiseDeclared last → n ∉ (otherwiseAssigned last).map (·.text) →
    Eval.Keeps n scope (otherwiseExec types scope last)
  | none, _, _ => Eval.keeps_ok
  | some body, hd, ha => blockExec_keeps body hd ha

end
end Source
end StagedMapping
