import StagedMapping.Proofs.Occurrence
import StagedMapping.Source.Module

/-! Every place at which a part of the syntax is written. The spans of a node are its own
and those of its parts, in the order in which they are read; the names that a statement reads
or changes, and the loop or return in it, stand at spans of the statement. -/
namespace StagedMapping.Source

/-! ### Types and expressions -/

/-- The spans of a part that may be absent. -/
def optionalSpans {α : Type} (spans : α → List Span) : Option α → List Span
  | none => []
  | some a => spans a

mutual

def TypeExpr.spans : TypeExpr → List Span
  | .named span _ => [span]
  | .applied span _ args => span :: TypeExpr.listSpans args

def TypeExpr.listSpans : List TypeExpr → List Span
  | [] => []
  | t :: rest => t.spans ++ TypeExpr.listSpans rest

end

theorem TypeExpr.span_mem (t : TypeExpr) : t.span ∈ t.spans := by
  cases t with
  | named => exact List.mem_singleton_self _
  | applied => exact List.mem_cons_self

theorem TypeExpr.listSpans_eq (ts : List TypeExpr) :
    TypeExpr.listSpans ts = ts.flatMap TypeExpr.spans := by
  induction ts with
  | nil => rfl
  | cons t rest ih => rw [listSpans, ih, List.flatMap_cons]

mutual

def Expr.spans : Expr → List Span
  | .ident span _ => [span]
  | .literal span _ => [span]
  | .field span base _ => span :: base.spans
  | .method span receiver _ args => span :: (receiver.spans ++ Expr.listSpans args)
  | .call span callee args => span :: (callee.spans ++ Expr.listSpans args)
  | .choice span value condition otherwise =>
    span :: (value.spans ++ condition.spans ++ otherwise.spans)
  | .binary span lhs _ rhs => span :: (lhs.spans ++ rhs.spans)
  | .unary span _ operand => span :: operand.spans
  | .construct span type args => span :: (type.spans ++ Argument.listSpans args)
  | .paren span inner => span :: inner.spans

def Expr.listSpans : List Expr → List Span
  | [] => []
  | e :: rest => e.spans ++ Expr.listSpans rest

def Argument.spans : Argument → List Span
  | .positional value => value.spans
  | .named name value => name.span :: value.spans

def Argument.listSpans : List Argument → List Span
  | [] => []
  | a :: rest => a.spans ++ Argument.listSpans rest

end

theorem Expr.span_mem (e : Expr) : e.span ∈ e.spans := by
  cases e <;> exact List.mem_cons_self

theorem Expr.listSpans_eq (es : List Expr) : Expr.listSpans es = es.flatMap Expr.spans := by
  induction es with
  | nil => rfl
  | cons e rest ih => rw [listSpans, ih, List.flatMap_cons]

theorem Argument.listSpans_eq (args : List Argument) :
    Argument.listSpans args = args.flatMap Argument.spans := by
  induction args with
  | nil => rfl
  | cons a rest ih => rw [listSpans, ih, List.flatMap_cons]

theorem Argument.value_spans (a : Argument) : a.value.spans ⊆ a.spans := by
  cases a with
  | positional value => exact fun _ h => h
  | named name value => exact fun _ h => List.mem_cons_of_mem _ h

/-! ### Statements -/

def Binding.spans (b : Binding) : List Span :=
  b.name.span :: (optionalSpans TypeExpr.spans b.type ++ optionalSpans Expr.spans b.value)

mutual

def Statement.spans : Statement → List Span
  | .letIn span bindings => span :: bindings.flatMap Binding.spans
  | .assign span target value => span :: target.span :: value.spans
  | .expr span value => span :: value.spans
  | .branch span condition body others otherwise =>
    span :: (condition.spans ++ blockSpans body ++ othersSpans others ++ otherwiseSpans otherwise)
  | .loop span condition body => span :: (condition.spans ++ blockSpans body)
  | .ret span value => span :: optionalSpans Expr.spans value
  | .pass span => [span]

def blockSpans : List Statement → List Span
  | [] => []
  | s :: rest => s.spans ++ blockSpans rest

def othersSpans : List (Expr × List Statement) → List Span
  | [] => []
  | (condition, body) :: rest => condition.spans ++ blockSpans body ++ othersSpans rest

def otherwiseSpans : Option (List Statement) → List Span
  | none => []
  | some body => blockSpans body

end

theorem Statement.span_mem (s : Statement) : s.span ∈ s.spans := by
  cases s <;> rw [spans] <;> exact List.mem_cons_self

theorem blockSpans_eq (body : List Statement) : blockSpans body = body.flatMap Statement.spans := by
  induction body with
  | nil => rfl
  | cons s rest ih => rw [blockSpans, ih, List.flatMap_cons]

/-! ### Declarations -/

def Decorator.spans (d : Decorator) : List Span := d.span :: d.args.flatMap TypeExpr.spans

def Field.spans (f : Field) : List Span := f.span :: f.type.spans

def Param.spans (p : Param) : List Span :=
  p.span :: (p.type.spans ++ optionalSpans Expr.spans p.default)

def Method.spans (m : Method) : List Span :=
  m.span :: (m.params.flatMap Param.spans ++ optionalSpans TypeExpr.spans m.returns ++
    optionalSpans blockSpans m.body)

def Class.spans (c : Class) : List Span :=
  c.span :: (c.decorators.flatMap Decorator.spans ++
    (c.fields.flatMap Field.spans ++ c.methods.flatMap Method.spans))

def Declaration.spans : Declaration → List Span
  | .space span _ => [span]
  | .importType span .. => [span]
  | .importAll span _ => [span]
  | .cls c => c.spans
  | .doc span _ => [span]

def Module.spans (m : Module) : List Span := m.declarations.flatMap Declaration.spans

theorem Module.class_spans {m : Module} {c : Class} (h : c ∈ m.classes) : c.spans ⊆ m.spans := by
  obtain ⟨d, hd, hclass⟩ := List.mem_filterMap.1 h
  cases d <;> cases hclass
  exact fun s hs => List.mem_flatMap.2 ⟨_, hd, hs⟩

/-! ### Reads and control flow -/

/-- A part of an expression is written where the expression is. -/
theorem Expr.Within.spans {part e : Expr} (h : part.Within e) : part.spans ⊆ e.spans := by
  have hargs {a : Expr} {args : List Expr} (ha : a ∈ args) : a.spans ⊆ Expr.listSpans args := by
    rw [Expr.listSpans_eq]
    exact fun s hs => List.mem_flatMap.2 ⟨a, ha, hs⟩
  induction h with
  | self => exact fun _ hs => hs
  | base _ ih | operand _ ih | inner _ ih => exact fun s hs => List.mem_cons_of_mem _ (ih hs)
  | receiver _ ih | callee _ ih | left _ ih =>
    exact fun s hs => List.mem_cons_of_mem _ (List.mem_append_left _ (ih hs))
  | right _ ih | otherwise _ ih =>
    exact fun s hs => List.mem_cons_of_mem _ (List.mem_append_right _ (ih hs))
  | value _ ih =>
    exact fun s hs =>
      List.mem_cons_of_mem _ (List.mem_append_left _ (List.mem_append_left _ (ih hs)))
  | condition _ ih =>
    exact fun s hs =>
      List.mem_cons_of_mem _ (List.mem_append_left _ (List.mem_append_right _ (ih hs)))
  | methodArg ha _ ih | callArg ha _ ih =>
    exact fun s hs => List.mem_cons_of_mem _ (List.mem_append_right _ (hargs ha (ih hs)))
  | initializer ha _ ih =>
    intro s hs
    rw [Expr.spans, Argument.listSpans_eq]
    refine List.mem_cons_of_mem _ (List.mem_append_right _ (List.mem_flatMap.2 ⟨_, ha, ?_⟩))
    exact Argument.value_spans _ (ih hs)

theorem Expr.reads_spans (e : Expr) : ∀ r ∈ e.reads, r.span ∈ e.spans :=
  fun r hr => (e.within_of_reads r hr).spans (List.mem_singleton_self _)

theorem optionalReads_spans (value : Option Expr) :
    ∀ r ∈ optionalReads value, r.span ∈ optionalSpans Expr.spans value := by
  cases value with
  | none => exact List.forall_mem_nil _
  | some e => exact e.reads_spans

theorem Binding.reads_spans (b : Binding) : ∀ r ∈ optionalReads b.value, r.span ∈ b.spans :=
  fun r hr => List.mem_cons_of_mem _ (List.mem_append_right _ (optionalReads_spans _ r hr))

mutual

theorem Statement.reads_spans (s : Statement) : ∀ r ∈ s.reads, r.span ∈ s.spans := by
  cases s with
  | letIn span bindings =>
    intro r hr
    obtain ⟨b, hb, hread⟩ := List.mem_flatMap.1 hr
    exact List.mem_cons_of_mem _ (List.mem_flatMap.2 ⟨b, hb, b.reads_spans r hread⟩)
  | assign span target value =>
    have hvalue := value.reads_spans
    grind [Statement.reads, Statement.spans]
  | expr span value =>
    intro r hr
    exact List.mem_cons_of_mem _ (value.reads_spans r hr)
  | branch span condition body others otherwise =>
    have hcondition := condition.reads_spans
    have hbody := blockReads_spans body
    have hothers := othersReads_spans others
    have hotherwise := otherwiseReads_spans otherwise
    grind [Statement.reads, Statement.spans]
  | loop span condition body =>
    have hcondition := condition.reads_spans
    have hbody := blockReads_spans body
    grind [Statement.reads, Statement.spans]
  | ret span value =>
    intro r hr
    exact List.mem_cons_of_mem _ (optionalReads_spans value r hr)
  | pass span => exact List.forall_mem_nil _

theorem blockReads_spans (body : List Statement) :
    ∀ r ∈ blockReads body, r.span ∈ blockSpans body := by
  cases body with
  | nil => exact List.forall_mem_nil _
  | cons s rest =>
    have hfirst := Statement.reads_spans s
    have hrest := blockReads_spans rest
    grind [blockReads, blockSpans]

theorem othersReads_spans (others : List (Expr × List Statement)) :
    ∀ r ∈ othersReads others, r.span ∈ othersSpans others := by
  match others with
  | [] => exact List.forall_mem_nil _
  | (condition, body) :: rest =>
    have hcondition := condition.reads_spans
    have hbody := blockReads_spans body
    have hrest := othersReads_spans rest
    grind [othersReads, othersSpans]

theorem otherwiseReads_spans (otherwise : Option (List Statement)) :
    ∀ r ∈ otherwiseReads otherwise, r.span ∈ otherwiseSpans otherwise := by
  cases otherwise with
  | none => exact List.forall_mem_nil _
  | some body => exact blockReads_spans body

end

mutual

theorem Statement.flow_spans (s : Statement) {flow : ControlFlow × Span}
    (h : s.controlFlow? = some flow) : flow.2 ∈ s.spans := by
  cases s with
  | loop span condition body =>
    cases h
    exact Statement.span_mem _
  | ret span value =>
    cases h
    exact Statement.span_mem _
  | branch span condition body others otherwise =>
    simp only [Statement.spans, List.mem_cons, List.mem_append]
    rw [Statement.controlFlow?, Option.or_eq_some_iff, Option.or_eq_some_iff] at h
    rcases h with h | ⟨-, h | ⟨-, h⟩⟩
    · exact .inr (.inl (.inl (.inr (blockFlow_spans body h))))
    · exact .inr (.inl (.inr (othersFlow_spans others h)))
    · exact .inr (.inr (otherwiseFlow_spans otherwise h))
  | _ => cases h

theorem blockFlow_spans (body : List Statement) {flow : ControlFlow × Span}
    (h : blockFlow? body = some flow) : flow.2 ∈ blockSpans body := by
  cases body with
  | nil => cases h
  | cons s rest =>
    rw [blockFlow?, Option.or_eq_some_iff] at h
    rw [blockSpans, List.mem_append]
    exact h.imp (Statement.flow_spans s) fun h => blockFlow_spans rest h.2

theorem othersFlow_spans (others : List (Expr × List Statement)) {flow : ControlFlow × Span}
    (h : othersFlow? others = some flow) : flow.2 ∈ othersSpans others := by
  match others with
  | [] => cases h
  | (condition, body) :: rest =>
    rw [othersFlow?, Option.or_eq_some_iff] at h
    rw [othersSpans, List.mem_append, List.mem_append]
    exact h.imp (fun h => .inr (blockFlow_spans body h)) fun h => othersFlow_spans rest h.2

theorem otherwiseFlow_spans (otherwise : Option (List Statement)) {flow : ControlFlow × Span}
    (h : otherwiseFlow? otherwise = some flow) : flow.2 ∈ otherwiseSpans otherwise := by
  cases otherwise with
  | none => cases h
  | some body => exact blockFlow_spans body h

end

end StagedMapping.Source
