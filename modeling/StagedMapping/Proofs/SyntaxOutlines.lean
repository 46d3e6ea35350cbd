import StagedMapping.Proofs.Outline
import StagedMapping.Proofs.SyntaxSpans

/-! The outlines of the syntax: for each node where it is written, and which nodes it contains.
A name that has a place of its own is a node too. No place is left out: the spans of an outline
are those of the node (`Expr.outline_spans` and its siblings). In a class the fields and the
methods are kept apart; its outline has them in the order written. -/
namespace StagedMapping.Source

def Ident.outline (name : Ident) : Outline := .node name.span []

/-! ### Types and expressions -/

mutual

def TypeExpr.outline : TypeExpr → Outline
  | .named span _ => .node span []
  | .applied span _ args => .node span (TypeExpr.outlines args)

def TypeExpr.outlines : List TypeExpr → List Outline
  | [] => []
  | t :: rest => t.outline :: TypeExpr.outlines rest

end

mutual

def Expr.outline : Expr → Outline
  | .ident span _ => .node span []
  | .literal span _ => .node span []
  | .field span base _ => .node span [base.outline]
  | .method span receiver _ args => .node span (receiver.outline :: Expr.outlines args)
  | .call span callee args => .node span (callee.outline :: Expr.outlines args)
  | .choice span value condition otherwise =>
    .node span [value.outline, condition.outline, otherwise.outline]
  | .binary span lhs _ rhs => .node span [lhs.outline, rhs.outline]
  | .unary span _ operand => .node span [operand.outline]
  | .construct span type args => .node span (type.outline :: Argument.listOutlines args)
  | .paren span inner => .node span [inner.outline]

def Expr.outlines : List Expr → List Outline
  | [] => []
  | e :: rest => e.outline :: Expr.outlines rest

/-- The name of an argument and its value; the argument is no node. -/
def Argument.outlines : Argument → List Outline
  | .positional value => [value.outline]
  | .named name value => [name.outline, value.outline]

def Argument.listOutlines : List Argument → List Outline
  | [] => []
  | a :: rest => a.outlines ++ Argument.listOutlines rest

end

theorem Expr.outline_span (e : Expr) : e.outline.span = e.span := by
  cases e <;> rfl

/-! ### Statements -/

/-- The name of a local, its type and its value; the local is no node. -/
def Binding.outlines (b : Binding) : List Outline :=
  b.name.outline :: ((b.type.map TypeExpr.outline).toList ++ (b.value.map Expr.outline).toList)

mutual

def Statement.outline : Statement → Outline
  | .letIn span bindings => .node span (bindings.flatMap Binding.outlines)
  | .assign span target value => .node span [target.outline, value.outline]
  | .expr span value => .node span [value.outline]
  | .branch span condition body others otherwise =>
    .node span (condition.outline ::
      (blockOutlines body ++ othersOutlines others ++ otherwiseOutlines otherwise))
  | .loop span condition body => .node span (condition.outline :: blockOutlines body)
  | .ret span value => .node span (value.map Expr.outline).toList
  | .pass span => .node span []

def blockOutlines : List Statement → List Outline
  | [] => []
  | s :: rest => s.outline :: blockOutlines rest

def othersOutlines : List (Expr × List Statement) → List Outline
  | [] => []
  | (condition, body) :: rest => condition.outline :: (blockOutlines body ++ othersOutlines rest)

def otherwiseOutlines : Option (List Statement) → List Outline
  | none => []
  | some body => blockOutlines body

end

/-! ### Declarations -/

def Decorator.outline (d : Decorator) : Outline := .node d.span (TypeExpr.outlines d.args)

def Field.outline (f : Field) : Outline := .node f.span [f.type.outline]

def Param.outline (p : Param) : Outline :=
  .node p.span (p.type.outline :: (p.default.map Expr.outline).toList)

def Method.outline (m : Method) : Outline :=
  .node m.span (m.params.map Param.outline ++ (m.returns.map TypeExpr.outline).toList ++
    otherwiseOutlines m.body)

def Class.outline (c : Class) : Outline :=
  .node c.span (c.decorators.map Decorator.outline ++
    Outline.interleave (c.fields.map Field.outline) (c.methods.map Method.outline))

def Declaration.outline : Declaration → Outline
  | .space span _ => .node span []
  | .importType span .. => .node span []
  | .importAll span _ => .node span []
  | .cls c => c.outline
  | .doc span _ => .node span []

def Module.outlines (m : Module) : List Outline := m.declarations.map Declaration.outline

/-! ### The spans of an outline -/

mutual

theorem TypeExpr.outline_spans (t : TypeExpr) : t.outline.spans = t.spans := by
  cases t with
  | named => rfl
  | applied span path args =>
    rw [TypeExpr.outline, Outline.spans, TypeExpr.outlines_spans args, TypeExpr.spans]

theorem TypeExpr.outlines_spans (ts : List TypeExpr) :
    Outline.listSpans (TypeExpr.outlines ts) = TypeExpr.listSpans ts := by
  cases ts with
  | nil => rfl
  | cons t rest =>
    rw [TypeExpr.outlines, Outline.listSpans, TypeExpr.outline_spans t,
      TypeExpr.outlines_spans rest, TypeExpr.listSpans]

end

mutual

theorem Expr.outline_spans (e : Expr) : e.outline.spans = e.spans := by
  cases e with
  | ident | literal => rfl
  | field span base name | unary span op base | paren span base =>
    simp [Expr.outline, Expr.spans, Expr.outline_spans base]
  | method span receiver name args | call span receiver args =>
    simp [Expr.outline, Expr.spans, Expr.outline_spans receiver, Expr.outlines_spans args]
  | choice span value condition otherwise =>
    simp [Expr.outline, Expr.spans, Expr.outline_spans value, Expr.outline_spans condition,
      Expr.outline_spans otherwise]
  | binary span lhs op rhs =>
    simp [Expr.outline, Expr.spans, Expr.outline_spans lhs, Expr.outline_spans rhs]
  | construct span type args =>
    simp [Expr.outline, Expr.spans, type.outline_spans, Argument.listOutlines_spans args]

theorem Expr.outlines_spans (es : List Expr) :
    Outline.listSpans (Expr.outlines es) = Expr.listSpans es := by
  cases es with
  | nil => rfl
  | cons e rest =>
    rw [Expr.outlines, Outline.listSpans, Expr.outline_spans e, Expr.outlines_spans rest,
      Expr.listSpans]

theorem Argument.outlines_spans (a : Argument) : Outline.listSpans a.outlines = a.spans := by
  cases a with
  | positional value => simp [Argument.outlines, Argument.spans, Expr.outline_spans value]
  | named name value =>
    simp [Argument.outlines, Argument.spans, Ident.outline, Expr.outline_spans value]

theorem Argument.listOutlines_spans (args : List Argument) :
    Outline.listSpans (Argument.listOutlines args) = Argument.listSpans args := by
  cases args with
  | nil => rfl
  | cons a rest =>
    rw [Argument.listOutlines, Outline.listSpans_append, Argument.outlines_spans a,
      Argument.listOutlines_spans rest, Argument.listSpans]

end

theorem optionalType_spans (type : Option TypeExpr) :
    Outline.listSpans (type.map TypeExpr.outline).toList = optionalSpans TypeExpr.spans type := by
  cases type <;> simp [optionalSpans, TypeExpr.outline_spans]

theorem optionalExpr_spans (value : Option Expr) :
    Outline.listSpans (value.map Expr.outline).toList = optionalSpans Expr.spans value := by
  cases value <;> simp [optionalSpans, Expr.outline_spans]

theorem Binding.outlines_spans (b : Binding) : Outline.listSpans b.outlines = b.spans := by
  simp [outlines, spans, Ident.outline, optionalType_spans,
    optionalExpr_spans]

mutual

theorem Statement.outline_spans (s : Statement) : s.outline.spans = s.spans := by
  cases s with
  | letIn span bindings =>
    simp [Statement.outline, Statement.spans, Outline.listSpans_flatMap, Binding.outlines_spans]
  | assign span target value =>
    simp [Statement.outline, Statement.spans, Ident.outline, Expr.outline_spans]
  | expr span value => simp [Statement.outline, Statement.spans, Expr.outline_spans]
  | branch span condition body others otherwise =>
    simp [Statement.outline, Statement.spans, Expr.outline_spans,
      blockOutlines_spans body, othersOutlines_spans others, otherwiseOutlines_spans otherwise]
  | loop span condition body =>
    simp [Statement.outline, Statement.spans, Expr.outline_spans, blockOutlines_spans body]
  | ret span value => simp [Statement.outline, Statement.spans, optionalExpr_spans]
  | pass span => rfl

theorem blockOutlines_spans (body : List Statement) :
    Outline.listSpans (blockOutlines body) = blockSpans body := by
  cases body with
  | nil => rfl
  | cons s rest =>
    rw [blockOutlines, Outline.listSpans, Statement.outline_spans s, blockOutlines_spans rest,
      blockSpans]

theorem othersOutlines_spans (others : List (Expr × List Statement)) :
    Outline.listSpans (othersOutlines others) = othersSpans others := by
  match others with
  | [] => rfl
  | (condition, body) :: rest =>
    simp [othersOutlines, othersSpans, Expr.outline_spans,
      blockOutlines_spans body, othersOutlines_spans rest]

theorem otherwiseOutlines_spans (otherwise : Option (List Statement)) :
    Outline.listSpans (otherwiseOutlines otherwise) = otherwiseSpans otherwise := by
  cases otherwise with
  | none => rfl
  | some body => exact blockOutlines_spans body

end

theorem Decorator.outline_spans (d : Decorator) : d.outline.spans = d.spans := by
  rw [outline, Outline.spans, TypeExpr.outlines_spans, TypeExpr.listSpans_eq, spans]

theorem Field.outline_spans (f : Field) : f.outline.spans = f.spans := by
  simp [outline, spans, TypeExpr.outline_spans]

theorem Param.outline_spans (p : Param) : p.outline.spans = p.spans := by
  simp [outline, spans, TypeExpr.outline_spans, optionalExpr_spans]

theorem Method.outline_spans (m : Method) : m.outline.spans = m.spans := by
  have body : otherwiseSpans m.body = optionalSpans blockSpans m.body := by
    cases m.body <;> rfl
  simp [outline, spans, Outline.listSpans_map, Param.outline_spans,
    optionalType_spans, otherwiseOutlines_spans, body]

/-- In a class they are in another order. -/
theorem Class.spans_outline (c : Class) : c.spans ⊆ c.outline.spans := by
  have members {o : Outline} (ho : o ∈ c.fields.map Field.outline ∨
      o ∈ c.methods.map Method.outline) : o.spans ⊆ c.outline.spans := by
    intro s hs
    rw [outline, Outline.spans, Outline.listSpans_eq]
    exact List.mem_cons_of_mem _ (List.mem_flatMap.2
      ⟨o, List.mem_append_right _ (Outline.mem_interleave.2 ho), hs⟩)
  refine List.cons_subset.2 ⟨List.mem_cons_self, List.append_subset.2
    ⟨fun s hs => ?_, List.append_subset.2 ⟨fun s hs => ?_, fun s hs => ?_⟩⟩⟩
  · simp only [outline, Outline.spans, Outline.listSpans_append, Outline.listSpans_map,
      Decorator.outline_spans]
    exact List.mem_cons_of_mem _ (List.mem_append_left _ hs)
  · obtain ⟨f, hf, hs⟩ := List.mem_flatMap.1 hs
    rw [← f.outline_spans] at hs
    exact members (.inl (List.mem_map_of_mem hf)) hs
  · obtain ⟨m, hm, hs⟩ := List.mem_flatMap.1 hs
    rw [← m.outline_spans] at hs
    exact members (.inr (List.mem_map_of_mem hm)) hs

theorem Declaration.spans_outline (d : Declaration) : d.spans ⊆ d.outline.spans := by
  cases d with
  | cls c => exact c.spans_outline
  | _ => exact List.Subset.refl _

theorem Module.spans_outlines (m : Module) : m.spans ⊆ Outline.listSpans m.outlines := by
  intro s hs
  obtain ⟨d, hd, hs⟩ := List.mem_flatMap.1 hs
  rw [outlines, Outline.listSpans_map]
  exact List.mem_flatMap.2 ⟨d, hd, d.spans_outline hs⟩

end StagedMapping.Source
