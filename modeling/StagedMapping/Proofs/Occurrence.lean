import StagedMapping.Source.Reads

/-! Parts of expressions and statements. `Expr.Within` and `Statement.Within` say that one
stands in another at whatever depth, and a name is mentioned by an expression if it stands
in it (`Expr.Mentions`). The lists of `Source.Reads` miss none of this: what is mentioned is
among the reads (`Expr.mentions_iff`), and whatever stands within a statement reads, assigns
and leaves only as the whole does. -/
namespace StagedMapping.Source

/-! ### Expressions -/

/-- The first expression is the second one or a part of it. -/
inductive Expr.Within (part : Expr) : Expr → Prop where
  | self : Within part part
  | base {span : Span} {base : Expr} {member : String} (h : Within part base) :
    Within part (.field span base member)
  | receiver {span : Span} {receiver : Expr} {member : String} {args : List Expr}
    (h : Within part receiver) : Within part (.method span receiver member args)
  | methodArg {span : Span} {receiver : Expr} {member : String} {args : List Expr} {a : Expr}
    (ha : a ∈ args) (h : Within part a) : Within part (.method span receiver member args)
  | callee {span : Span} {callee : Expr} {args : List Expr} (h : Within part callee) :
    Within part (.call span callee args)
  | callArg {span : Span} {callee : Expr} {args : List Expr} {a : Expr} (ha : a ∈ args)
    (h : Within part a) : Within part (.call span callee args)
  | value {span : Span} {value condition otherwise : Expr} (h : Within part value) :
    Within part (.choice span value condition otherwise)
  | condition {span : Span} {value condition otherwise : Expr} (h : Within part condition) :
    Within part (.choice span value condition otherwise)
  | otherwise {span : Span} {value condition otherwise : Expr} (h : Within part otherwise) :
    Within part (.choice span value condition otherwise)
  | left {span : Span} {lhs rhs : Expr} {op : BinaryOp} (h : Within part lhs) :
    Within part (.binary span lhs op rhs)
  | right {span : Span} {lhs rhs : Expr} {op : BinaryOp} (h : Within part rhs) :
    Within part (.binary span lhs op rhs)
  | operand {span : Span} {op : UnaryOp} {operand : Expr} (h : Within part operand) :
    Within part (.unary span op operand)
  | initializer {span : Span} {type : TypeExpr} {args : List Argument} {a : Argument}
    (ha : a ∈ args) (h : Within part a.value) : Within part (.construct span type args)
  | inner {span : Span} {inner : Expr} (h : Within part inner) : Within part (.paren span inner)

theorem Expr.Within.trans {part e whole : Expr} (h : part.Within e) (h' : e.Within whole) :
    part.Within whole := by
  induction h' with
  | self => exact h
  | base _ ih => exact .base ih
  | receiver _ ih => exact .receiver ih
  | methodArg ha _ ih => exact .methodArg ha ih
  | callee _ ih => exact .callee ih
  | callArg ha _ ih => exact .callArg ha ih
  | value _ ih => exact .value ih
  | condition _ ih => exact .condition ih
  | otherwise _ ih => exact .otherwise ih
  | left _ ih => exact .left ih
  | right _ ih => exact .right ih
  | operand _ ih => exact .operand ih
  | initializer ha _ ih => exact .initializer ha ih
  | inner _ ih => exact .inner ih

/-- A part of the expression is the name. -/
def Expr.Mentions (name : String) (e : Expr) : Prop := ∃ span, Expr.Within (.ident span name) e

theorem Expr.listReads_eq (es : List Expr) : Expr.listReads es = es.flatMap (·.reads) := by
  induction es with
  | nil => rfl
  | cons e rest ih => rw [Expr.listReads, ih, List.flatMap_cons]

theorem Argument.reads_eq (a : Argument) : a.reads = a.value.reads := by
  cases a <;> rw [Argument.reads, Argument.value]

theorem Argument.listReads_eq (args : List Argument) :
    Argument.listReads args = args.flatMap (·.value.reads) := by
  induction args with
  | nil => rfl
  | cons a rest ih => rw [Argument.listReads, ih, List.flatMap_cons, Argument.reads_eq]

/-- No part of an expression is left out of its reads. -/
theorem Expr.Within.reads {part e : Expr} (h : part.Within e) : ∀ r ∈ part.reads, r ∈ e.reads := by
  have hargs {a : Expr} {args : List Expr} (ha : a ∈ args) {r : Ident} (hr : r ∈ a.reads) :
      r ∈ Expr.listReads args := by
    rw [Expr.listReads_eq]
    exact List.mem_flatMap.2 ⟨a, ha, hr⟩
  induction h with
  | self => exact fun _ hr => hr
  | base _ ih | operand _ ih | inner _ ih => exact ih
  | receiver _ ih | callee _ ih | left _ ih => exact fun r hr => List.mem_append_left _ (ih r hr)
  | right _ ih | otherwise _ ih => exact fun r hr => List.mem_append_right _ (ih r hr)
  | value _ ih => exact fun r hr => List.mem_append_left _ (List.mem_append_left _ (ih r hr))
  | condition _ ih => exact fun r hr => List.mem_append_left _ (List.mem_append_right _ (ih r hr))
  | methodArg ha _ ih | callArg ha _ ih =>
    exact fun r hr => List.mem_append_right _ (hargs ha (ih r hr))
  | initializer ha _ ih =>
    intro r hr
    rw [Expr.reads, Argument.listReads_eq]
    exact List.mem_flatMap.2 ⟨_, ha, ih r hr⟩

mutual

/-- What an expression reads is a name in it. -/
theorem Expr.within_of_reads : (e : Expr) → ∀ r ∈ e.reads, Expr.Within (.ident r.span r.text) e
  | .ident span name, r, hr => by
    cases List.mem_singleton.1 hr
    exact .self
  | .field _ base _, r, hr => .base (base.within_of_reads r hr)
  | .method _ receiver _ args, r, hr => by
    rcases List.mem_append.1 hr with hr | hr
    · exact .receiver (receiver.within_of_reads r hr)
    · obtain ⟨a, ha, h⟩ := Expr.listWithin_of_reads args r hr
      exact .methodArg ha h
  | .call _ callee args, r, hr => by
    rcases List.mem_append.1 hr with hr | hr
    · exact .callee (callee.within_of_reads r hr)
    · obtain ⟨a, ha, h⟩ := Expr.listWithin_of_reads args r hr
      exact .callArg ha h
  | .choice _ value condition otherwise, r, hr => by
    simp only [Expr.reads, List.mem_append] at hr
    rcases hr with (hr | hr) | hr
    · exact .value (value.within_of_reads r hr)
    · exact .condition (condition.within_of_reads r hr)
    · exact .otherwise (otherwise.within_of_reads r hr)
  | .binary _ lhs _ rhs, r, hr => by
    rcases List.mem_append.1 hr with hr | hr
    · exact .left (lhs.within_of_reads r hr)
    · exact .right (rhs.within_of_reads r hr)
  | .unary _ _ operand, r, hr => .operand (operand.within_of_reads r hr)
  | .construct _ _ args, r, hr => by
    obtain ⟨a, ha, h⟩ := Argument.listWithin_of_reads args r hr
    exact .initializer ha h
  | .paren _ inner, r, hr => .inner (inner.within_of_reads r hr)

theorem Expr.listWithin_of_reads : (es : List Expr) →
    ∀ r ∈ Expr.listReads es, ∃ e ∈ es, Expr.Within (.ident r.span r.text) e
  | e :: rest, r, hr => by
    rcases List.mem_append.1 hr with hr | hr
    · exact ⟨e, List.mem_cons_self, e.within_of_reads r hr⟩
    · obtain ⟨a, ha, h⟩ := Expr.listWithin_of_reads rest r hr
      exact ⟨a, List.mem_cons_of_mem _ ha, h⟩

theorem Argument.within_of_reads : (a : Argument) →
    ∀ r ∈ a.reads, Expr.Within (.ident r.span r.text) a.value
  | .positional value, r, hr => value.within_of_reads r hr
  | .named _ value, r, hr => value.within_of_reads r hr

theorem Argument.listWithin_of_reads : (args : List Argument) →
    ∀ r ∈ Argument.listReads args, ∃ a ∈ args, Expr.Within (.ident r.span r.text) a.value
  | a :: rest, r, hr => by
    rcases List.mem_append.1 hr with hr | hr
    · exact ⟨a, List.mem_cons_self, a.within_of_reads r hr⟩
    · obtain ⟨b, hb, h⟩ := Argument.listWithin_of_reads rest r hr
      exact ⟨b, List.mem_cons_of_mem _ hb, h⟩

end

theorem Expr.Mentions.reads {name : String} {e : Expr} (h : e.Mentions name) :
    ∃ r ∈ e.reads, r.text = name := by
  obtain ⟨span, h⟩ := h
  exact ⟨⟨name, span⟩, h.reads _ (List.mem_singleton.2 rfl), rfl⟩

/-- The reads of an expression are the names that it mentions. -/
theorem Expr.mentions_iff {name : String} {e : Expr} :
    e.Mentions name ↔ name ∈ e.reads.map (·.text) := by
  constructor
  · intro h
    obtain ⟨r, hr, rfl⟩ := h.reads
    exact List.mem_map_of_mem hr
  · intro h
    obtain ⟨r, hr, rfl⟩ := List.mem_map.1 h
    exact ⟨r.span, e.within_of_reads r hr⟩

/-! ### Statements -/

/-- The first statement is the second one or stands in a block of it. -/
inductive Statement.Within (s : Statement) : Statement → Prop where
  | self : Within s s
  | body {span : Span} {condition : Expr} {body : List Statement}
    {others : List (Expr × List Statement)} {otherwise : Option (List Statement)} {t : Statement}
    (ht : t ∈ body) (h : Within s t) : Within s (.branch span condition body others otherwise)
  | other {span : Span} {condition : Expr} {body : List Statement}
    {others : List (Expr × List Statement)} {otherwise : Option (List Statement)}
    {o : Expr × List Statement} {t : Statement} (ho : o ∈ others) (ht : t ∈ o.2)
    (h : Within s t) : Within s (.branch span condition body others otherwise)
  | otherwise {span : Span} {condition : Expr} {body : List Statement}
    {others : List (Expr × List Statement)} {last : List Statement} {t : Statement}
    (ht : t ∈ last) (h : Within s t) : Within s (.branch span condition body others (some last))
  | loop {span : Span} {condition : Expr} {body : List Statement} {t : Statement}
    (ht : t ∈ body) (h : Within s t) : Within s (.loop span condition body)

/-- The expressions of a statement that are not in a block of it. -/
def Statement.expressions : Statement → List Expr
  | .letIn _ bindings => bindings.filterMap (·.value)
  | .assign _ _ value => [value]
  | .expr _ value => [value]
  | .branch _ condition _ others _ => condition :: others.map (·.1)
  | .loop _ condition _ => [condition]
  | .ret _ value => value.toList
  | .pass _ => []

/-- The name that an assignment changes. -/
def Statement.target? : Statement → Option Ident
  | .assign _ target _ => some target
  | _ => none

theorem blockReads_eq (body : List Statement) : blockReads body = body.flatMap (·.reads) := by
  induction body with
  | nil => rfl
  | cons s rest ih => rw [blockReads, ih, List.flatMap_cons]

theorem mem_othersReads {others : List (Expr × List Statement)} {o : Expr × List Statement}
    (ho : o ∈ others) {r : Ident} (h : r ∈ o.1.reads ∨ r ∈ blockReads o.2) :
    r ∈ othersReads others := by
  induction others with
  | nil => cases ho
  | cons x rest ih =>
    rw [othersReads, List.mem_append, List.mem_append]
    rcases List.mem_cons.1 ho with rfl | ho
    · exact .inl h
    · exact .inr (ih ho)

/-- What stands within a statement reads nothing but what the whole reads. -/
theorem Statement.Within.reads {s t : Statement} (h : s.Within t) : ∀ r ∈ s.reads, r ∈ t.reads := by
  have hblock {u : Statement} {body : List Statement} (hu : u ∈ body) {r : Ident}
      (hr : r ∈ u.reads) : r ∈ blockReads body := by
    rw [blockReads_eq]
    exact List.mem_flatMap.2 ⟨u, hu, hr⟩
  induction h with
  | self => exact fun _ hr => hr
  | body ht _ ih =>
    intro r hr
    simp only [Statement.reads, List.mem_append]
    exact .inl (.inl (.inr (hblock ht (ih r hr))))
  | other ho ht _ ih =>
    intro r hr
    simp only [Statement.reads, List.mem_append]
    exact .inl (.inr (mem_othersReads ho (.inr (hblock ht (ih r hr)))))
  | otherwise ht _ ih => exact fun r hr => List.mem_append_right _ (hblock ht (ih r hr))
  | loop ht _ ih => exact fun r hr => List.mem_append_right _ (hblock ht (ih r hr))

theorem Statement.expressions_reads {s : Statement} {e : Expr} (he : e ∈ s.expressions) :
    ∀ r ∈ e.reads, r ∈ s.reads := by
  intro r hr
  cases s with
  | letIn span bindings =>
    obtain ⟨b, hb, hv⟩ := List.mem_filterMap.1 he
    refine List.mem_flatMap.2 ⟨b, hb, ?_⟩
    rw [hv]
    exact hr
  | assign span target value =>
    cases List.mem_singleton.1 he
    exact List.mem_cons_of_mem _ hr
  | expr span value =>
    cases List.mem_singleton.1 he
    exact hr
  | branch span condition body others otherwise =>
    simp only [Statement.reads, List.mem_append]
    rcases List.mem_cons.1 he with rfl | he
    · exact .inl (.inl (.inl hr))
    · obtain ⟨o, ho, rfl⟩ := List.mem_map.1 he
      exact .inl (.inr (mem_othersReads ho (.inl hr)))
  | loop span condition body =>
    cases List.mem_singleton.1 he
    exact List.mem_append_left _ hr
  | ret span value =>
    cases Option.mem_toList.1 he
    exact hr
  | pass span => cases he

theorem Statement.target_reads {s : Statement} {r : Ident} (h : s.target? = some r) :
    r ∈ s.reads := by
  cases s with
  | assign span target value =>
    cases h
    exact List.mem_cons_self
  | _ => cases h

theorem flow_of_blockFlow {body : List Statement} (h : blockFlow? body = none) :
    ∀ s ∈ body, s.controlFlow? = none := by
  induction body with
  | nil => exact fun _ hs => by cases hs
  | cons t rest ih =>
    rw [blockFlow?, Option.or_eq_none_iff] at h
    intro s hs
    rcases List.mem_cons.1 hs with rfl | hs
    · exact h.1
    · exact ih h.2 s hs

theorem flow_of_othersFlow {others : List (Expr × List Statement)}
    (h : othersFlow? others = none) : ∀ o ∈ others, ∀ s ∈ o.2, s.controlFlow? = none := by
  induction others with
  | nil => exact fun _ ho => by cases ho
  | cons x rest ih =>
    rw [othersFlow?, Option.or_eq_none_iff] at h
    intro o ho
    rcases List.mem_cons.1 ho with rfl | ho
    · exact flow_of_blockFlow h.1
    · exact ih h.2 o ho

/-- A statement without loops and returns has none within it. -/
theorem Statement.Within.flow {s t : Statement} (h : s.Within t) (ht : t.controlFlow? = none) :
    s.controlFlow? = none := by
  induction h with
  | self => exact ht
  | body hm _ ih =>
    rw [Statement.controlFlow?, Option.or_eq_none_iff] at ht
    exact ih (flow_of_blockFlow ht.1 _ hm)
  | other ho hm _ ih =>
    rw [Statement.controlFlow?, Option.or_eq_none_iff, Option.or_eq_none_iff] at ht
    exact ih (flow_of_othersFlow ht.2.1 _ ho _ hm)
  | otherwise hm _ ih =>
    rw [Statement.controlFlow?, Option.or_eq_none_iff, Option.or_eq_none_iff] at ht
    exact ih (flow_of_blockFlow ht.2.2 _ hm)
  | loop => cases ht

end StagedMapping.Source
