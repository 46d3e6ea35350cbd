import StagedMapping.Proofs.Occurrence
import StagedMapping.Source.Expr.Parser

/-! How operators group their operands. The registry of operators says which of them can head
an operand without parentheses: one that binds tighter, or as tight on the side that the
operator associates to (`Operator.Takes`). An expression fits if every operand of its own
operator does, or is a comparison to the left of another one (`Expr.Fits`), and an expression
whose outermost operator is of a level binds as tight as the level (`Expr.Binds`). From operands
that bind tight enough follows that the whole fits (`Expr.Fits.binary`, `Expr.Fits.unary`). -/
namespace StagedMapping

namespace Operator

/-- Where an operand stands: to the left or the right of its operator, or after a prefix. -/
inductive Side where
  | left
  | right
  | after
  deriving DecidableEq, Repr

/-- An operand of the same precedence may stand there. -/
def Associativity.allows : Associativity → Side → Bool
  | .left, .left => true
  | .right, .after => true
  | _, _ => false

/-- The registry lets the second operator head an operand of the first one on that side. -/
def Takes (o : Operator) (side : Side) (p : Operator) : Prop :=
  o.precedence < p.precedence ∨
    (p.precedence = o.precedence ∧ o.associativity.allows side = true)

instance (o : Operator) (side : Side) (p : Operator) : Decidable (o.Takes side p) :=
  inferInstanceAs (Decidable (_ ∨ _))

/-- The operators that do not associate. -/
def comparisons : List Operator := [.eqEq, .notEq, .lt, .ltEq, .gt, .gtEq]

theorem mem_comparisons_iff {o : Operator} : o ∈ comparisons ↔ o.associativity = .none := by
  cases o <;> decide

theorem precedence_eq_of_mem_comparisons {o p : Operator} (ho : o ∈ comparisons) :
    p ∈ comparisons ↔ p.precedence = o.precedence := by
  cases o <;> first | exact absurd ho (by decide) | (cases p <;> decide)

/-- A comparison stands to the left of another one. -/
def Chains (o : Operator) (side : Side) (p : Operator) : Prop :=
  side = .left ∧ o ∈ comparisons ∧ p ∈ comparisons

/-- The registry lets no comparison head an operand of another one. -/
theorem Chains.not_takes {o p : Operator} {side : Side} (h : o.Chains side p) :
    ¬ o.Takes side p := by
  obtain ⟨-, ho, hp⟩ := h
  have same := (precedence_eq_of_mem_comparisons ho).1 hp
  rintro (tighter | ⟨-, allowed⟩)
  · omega
  · rw [mem_comparisons_iff.1 ho] at allowed
    cases allowed

end Operator

namespace Source
open Operator (Side)

/-! ### Levels -/

namespace Level

/-- The precedence of the operators of a level. The sign is not in the registry, and binds
tighter than everything there. -/
def precedence : Level → Nat
  | disjunction => 25
  | conjunction => 30
  | negation => 35
  | comparison => 40
  | sum => 50
  | product => 60
  | sign => 70

theorem precedence_tighter {l m : Level} (h : l.tighter? = some m) :
    l.precedence < m.precedence := by
  cases l <;> cases h <;> decide

/-- Levels agree with the registry on how tight operators bind, and they chain all of them to
the left, those that do not associate too. -/
theorem operation?_registered {l : Level} {k : TokenKind} {op : BinaryOp}
    (h : l.operation? k = some op) : op.operator.precedence = l.precedence ∧
      (op.operator.associativity = .left ∨ op.operator.associativity = .none) := by
  unfold operation? at h
  split at h <;> cases h
  all_goals exact ⟨rfl, by decide⟩

theorem leading?_eq_some {l : Level} {k : TokenKind} {op : UnaryOp} (h : l.leading? k = some op) :
    (l = negation ∧ op = .not) ∨ (l = sign ∧ op = .neg) := by
  unfold leading? at h
  split at h <;> cases h
  · exact .inl ⟨rfl, rfl⟩
  · exact .inr ⟨rfl, rfl⟩

end Level

/-! ### Operands -/

namespace Expr
variable {span : Span} {e part base lhs rhs operand : Expr} {k : Nat}

def isChoice : Expr → Bool
  | .choice .. => true
  | _ => false

/-- The outermost operator, if it is one of the registry and not in parentheses. -/
def operator? : Expr → Option Operator
  | .binary _ _ op _ => some op.operator
  | .unary _ .not _ => some .not
  | _ => none

/-- The operands of the outermost operator, the sign included. -/
def operands : Expr → List (Side × Expr)
  | .binary _ lhs _ rhs => [(.left, lhs), (.right, rhs)]
  | .unary _ _ operand => [(.after, operand)]
  | _ => []

/-- No operand is a choice, and the registry lets each have its operator, unless it is a
comparison to the left of another one. -/
def Fits (e : Expr) : Prop := ∀ x ∈ e.operands, x.2.isChoice = false ∧
  ∀ o ∈ e.operator?, ∀ p ∈ x.2.operator?, o.Takes x.1 p ∨ o.Chains x.1 p

/-- The outermost operator binds at least as tight, and is not that of a choice. -/
structure Binds (k : Nat) (e : Expr) : Prop where
  isChoice : e.isChoice = false
  tight : ∀ o ∈ e.operator?, k ≤ o.precedence

theorem Binds.mono {m : Nat} (h : e.Binds m) (hk : k ≤ m) : e.Binds k :=
  ⟨h.isChoice, fun o ho => Nat.le_trans hk (h.tight o ho)⟩

/-- An expression without an operator binds tighter than all of them. -/
theorem Binds.of_operator?_eq_none (hc : e.isChoice = false) (ho : e.operator? = none) (k : Nat) :
    e.Binds k := by
  refine ⟨hc, ?_⟩
  rw [ho]
  exact nofun

section Levels
variable {l : Level} {kind : TokenKind}

theorem Binds.binary {op : BinaryOp} (h : l.operation? kind = some op) :
    (Expr.binary span lhs op rhs).Binds l.precedence := by
  refine ⟨rfl, ?_⟩
  rintro _ ⟨⟩
  exact Nat.le_of_eq (Level.operation?_registered h).1.symm

theorem Binds.unary {op : UnaryOp} (h : l.leading? kind = some op) :
    (Expr.unary span op operand).Binds l.precedence := by
  obtain ⟨rfl, rfl⟩ | ⟨rfl, rfl⟩ := Level.leading?_eq_some h
  · refine ⟨rfl, ?_⟩
    rintro _ ⟨⟩
    exact Nat.le_refl _
  · exact Binds.of_operator?_eq_none rfl rfl _

/-- The left operand binds as tight as its operator or tighter, the right one tighter. -/
theorem Fits.binary {op : BinaryOp} (h : l.operation? kind = some op)
    (hl : lhs.Binds l.precedence) (hr : rhs.Binds (l.precedence + 1)) :
    (Expr.binary span lhs op rhs).Fits := by
  obtain ⟨level, side⟩ := Level.operation?_registered h
  refine List.forall_mem_cons.2 ⟨⟨hl.isChoice, ?_⟩, List.forall_mem_singleton.2 ⟨hr.isChoice, ?_⟩⟩
  · rintro _ ⟨⟩ p hp
    rcases Nat.lt_or_eq_of_le (hl.tight p hp) with tighter | same
    · exact .inl (.inl (by rw [level]; exact tighter))
    replace same : p.precedence = op.operator.precedence := by rw [level, same]
    rcases side with left | none
    · exact .inl (.inr ⟨same, by rw [left]; rfl⟩)
    · replace none := Operator.mem_comparisons_iff.2 none
      exact .inr ⟨rfl, none, (Operator.precedence_eq_of_mem_comparisons none).2 same⟩
  · rintro _ ⟨⟩ p hp
    exact .inl (.inl (by rw [level]; exact hr.tight p hp))

theorem Fits.unary {op : UnaryOp} (h : l.leading? kind = some op)
    (ho : operand.Binds l.precedence) : (Expr.unary span op operand).Fits := by
  refine List.forall_mem_singleton.2 ⟨ho.isChoice, ?_⟩
  obtain ⟨rfl, rfl⟩ | ⟨rfl, rfl⟩ := Level.leading?_eq_some h
  · rintro _ ⟨⟩ p hp
    rcases Nat.lt_or_eq_of_le (ho.tight p hp) with tighter | same
    · exact .inl (.inl tighter)
    · exact .inl (.inr ⟨same.symm, rfl⟩)
  · exact nofun

end Levels

/-! ### Grouped expressions -/

/-- Everywhere in the expression, operands fit. -/
def Grouped (e : Expr) : Prop := ∀ part : Expr, part.Within e → part.Fits

theorem Fits.of_operands_eq_nil (h : e.operands = []) : e.Fits := by
  unfold Fits
  rw [h]
  exact List.forall_mem_nil _

namespace Grouped

theorem ident {name : String} : (Expr.ident span name).Grouped := by
  rintro _ ⟨⟩
  exact Fits.of_operands_eq_nil rfl

theorem literal {value : Literal} : (Expr.literal span value).Grouped := by
  rintro _ ⟨⟩
  exact Fits.of_operands_eq_nil rfl

theorem field {name : String} (h : base.Grouped) : (Expr.field span base name).Grouped := by
  intro part hpart
  cases hpart with
  | self => exact Fits.of_operands_eq_nil rfl
  | base hpart => exact h part hpart

theorem method {name : String} {args : List Expr} (h : base.Grouped)
    (hargs : ∀ a ∈ args, a.Grouped) : (Expr.method span base name args).Grouped := by
  intro part hpart
  cases hpart with
  | self => exact Fits.of_operands_eq_nil rfl
  | receiver hpart => exact h part hpart
  | methodArg ha hpart => exact hargs _ ha part hpart

theorem call {args : List Expr} (h : base.Grouped) (hargs : ∀ a ∈ args, a.Grouped) :
    (Expr.call span base args).Grouped := by
  intro part hpart
  cases hpart with
  | self => exact Fits.of_operands_eq_nil rfl
  | callee hpart => exact h part hpart
  | callArg ha hpart => exact hargs _ ha part hpart

theorem choice {value condition otherwise : Expr} (hv : value.Grouped) (hc : condition.Grouped)
    (ho : otherwise.Grouped) : (Expr.choice span value condition otherwise).Grouped := by
  intro part hpart
  cases hpart with
  | self => exact Fits.of_operands_eq_nil rfl
  | value hpart => exact hv part hpart
  | condition hpart => exact hc part hpart
  | otherwise hpart => exact ho part hpart

theorem binary {op : BinaryOp} (hl : lhs.Grouped) (hr : rhs.Grouped)
    (fits : (Expr.binary span lhs op rhs).Fits) : (Expr.binary span lhs op rhs).Grouped := by
  intro part hpart
  cases hpart with
  | self => exact fits
  | left hpart => exact hl part hpart
  | right hpart => exact hr part hpart

theorem unary {op : UnaryOp} (h : operand.Grouped) (fits : (Expr.unary span op operand).Fits) :
    (Expr.unary span op operand).Grouped := by
  intro part hpart
  cases hpart with
  | self => exact fits
  | operand hpart => exact h part hpart

theorem construct {type : TypeExpr} {args : List Argument} (h : ∀ a ∈ args, a.value.Grouped) :
    (Expr.construct span type args).Grouped := by
  intro part hpart
  cases hpart with
  | self => exact Fits.of_operands_eq_nil rfl
  | initializer ha hpart => exact h _ ha part hpart

theorem paren (h : base.Grouped) : (Expr.paren span base).Grouped := by
  intro part hpart
  cases hpart with
  | self => exact Fits.of_operands_eq_nil rfl
  | inner hpart => exact h part hpart

end Grouped

theorem Grouped.within (hpart : part.Within e) (h : e.Grouped) : part.Grouped :=
  fun smaller hsmaller => h smaller (hsmaller.trans hpart)

end Expr
end Source
end StagedMapping
