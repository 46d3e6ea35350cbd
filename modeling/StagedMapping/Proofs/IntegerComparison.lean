import StagedMapping.Proofs.RoundedIntegers
import StagedMapping.Tree.Eval

/-! Comparisons of integers. An equality compares the integers themselves, an order their
doubles, so what it compares are the rounded integers (`Tree.eval_comparison`). Orders are
therefore right where they tell two integers apart, and they tell two integers apart where
their roundings differ (`Tree.orderedAs_iff`): everywhere up to 2^53, but not beyond
(`Tree.comparison_not_total`). -/
namespace StagedMapping
open Number

namespace BinaryOp

/-- What a comparison says of two integers. -/
def relation? : BinaryOp → Option (Int → Int → Bool)
  | eq => some fun m n => m = n
  | notEq => some fun m n => m ≠ n
  | lt => some fun m n => m < n
  | ltEq => some fun m n => m ≤ n
  | gt => some fun m n => n < m
  | gtEq => some fun m n => n ≤ m
  | add | sub | mul | div | mod | and | or => none

/-- What a comparison sees of an integer. -/
def view (op : BinaryOp) (n : Int) : Int := if op = eq ∨ op = notEq then n else rounded n

end BinaryOp

namespace Tree
variable {scope : Scope} {a b : Tree} {m n : Int64}

/-- A comparison of two integers evaluates to what it says of what it sees of them. -/
theorem eval_comparison (ha : a.eval scope = .ok (.int m)) (hb : b.eval scope = .ok (.int n))
    {op : BinaryOp} {r : Int → Int → Bool} (hr : op.relation? = some r) :
    (binary op a b).eval scope = .ok (.bool (r (op.view m.toInt) (op.view n.toInt))) := by
  cases op <;> cases hr <;>
    simp only [eval, ha, hb, bind, Except.bind, Value.operate, Value.compare, Value.asFloat,
      Value.equal, Value.same, BinaryOp.view]
  case eq => simp [beq_eq_decide, ← Int64.toInt_inj]
  case notEq => simp [beq_eq_decide, ← Int64.toInt_inj]
  case lt => simp [ofInt64_lt]
  case ltEq => simp [ofInt64_le]
  case gt => simp [ofInt64_lt]
  case gtEq => simp [ofInt64_le]

/-- A comparison of two trees evaluates to true. -/
def Holds (scope : Scope) (op : BinaryOp) (a b : Tree) : Prop :=
  (binary op a b).eval scope = .ok (.bool true)

theorem holds_iff (ha : a.eval scope = .ok (.int m)) (hb : b.eval scope = .ok (.int n))
    {op : BinaryOp} {r : Int → Int → Bool} (hr : op.relation? = some r) :
    Holds scope op a b ↔ r (op.view m.toInt) (op.view n.toInt) = true := by
  rw [Holds, eval_comparison ha hb hr]
  simp

/-- The comparisons of two trees are those of two integers: exactly one of `<`, `==` and `>`
holds, the one that holds of the integers, and `<=` and `>=` are the unions. -/
structure OrderedAs (scope : Scope) (a b : Tree) (m n : Int) : Prop where
  lt : Holds scope .lt a b ↔ m < n
  eq : Holds scope .eq a b ↔ m = n
  gt : Holds scope .gt a b ↔ n < m
  ltEq : Holds scope .ltEq a b ↔ Holds scope .lt a b ∨ Holds scope .eq a b
  gtEq : Holds scope .gtEq a b ↔ Holds scope .gt a b ∨ Holds scope .eq a b

section
variable (ha : a.eval scope = .ok (.int m)) (hb : b.eval scope = .ok (.int n))
include ha hb

/-- The orders hold of the rounded integers, and equality of the integers. -/
theorem holds_rounded :
    (Holds scope .lt a b ↔ rounded m.toInt < rounded n.toInt) ∧
    (Holds scope .eq a b ↔ m.toInt = n.toInt) ∧
    (Holds scope .gt a b ↔ rounded n.toInt < rounded m.toInt) ∧
    (Holds scope .ltEq a b ↔ rounded m.toInt ≤ rounded n.toInt) ∧
    (Holds scope .gtEq a b ↔ rounded n.toInt ≤ rounded m.toInt) := by
  refine ⟨?_, ?_, ?_, ?_, ?_⟩ <;> exact (holds_iff ha hb rfl).trans decide_eq_true_iff

/-- The comparisons are a total order exactly where rounding does not make two integers one. -/
theorem orderedAs_iff : OrderedAs scope a b m.toInt n.toInt ↔
    m.toInt = n.toInt ∨ rounded m.toInt ≠ rounded n.toInt := by
  have up : m.toInt ≤ n.toInt → rounded m.toInt ≤ rounded n.toInt := rounded_mono
  have down : n.toInt ≤ m.toInt → rounded n.toInt ≤ rounded m.toInt := rounded_mono
  have same : m.toInt = n.toInt → rounded m.toInt = rounded n.toInt := congrArg rounded
  obtain ⟨lt, eq, gt, ltEq, gtEq⟩ := holds_rounded ha hb
  constructor
  · intro h
    have less := lt.symm.trans h.lt
    have greater := gt.symm.trans h.gt
    omega
  · intro apart
    refine ⟨lt.trans (by omega), eq, gt.trans (by omega), ?_, ?_⟩
    · rw [ltEq, lt, eq]
      omega
    · rw [gtEq, gt, eq]
      omega

end

/-- Of two integers, an equality compares the integers and an order the rounded integers. An
order that tells two integers apart is right, and the comparisons are a total order that
agrees with equality exactly where two different integers are not rounded to one, as up to
2^53. -/
theorem integers_compared (ha : a.eval scope = .ok (.int m)) (hb : b.eval scope = .ok (.int n)) :
    (∀ op r, BinaryOp.relation? op = some r →
      (binary op a b).eval scope = .ok (.bool (r (op.view m.toInt) (op.view n.toInt)))) ∧
    (Holds scope .lt a b → m.toInt < n.toInt) ∧ (Holds scope .gt a b → n.toInt < m.toInt) ∧
    (OrderedAs scope a b m.toInt n.toInt ↔
      m.toInt = n.toInt ∨ rounded m.toInt ≠ rounded n.toInt) ∧
    (m.toInt.natAbs ≤ 2 ^ 53 → n.toInt.natAbs ≤ 2 ^ 53 →
      OrderedAs scope a b m.toInt n.toInt) := by
  obtain ⟨lt, -, gt, -, -⟩ := holds_rounded ha hb
  refine ⟨fun op r hr => eval_comparison ha hb hr, fun h => ?_, fun h => ?_, orderedAs_iff ha hb,
    fun hm hn => (orderedAs_iff ha hb).2 ?_⟩
  · exact Int.not_le.1 fun le => Int.not_le.2 (lt.1 h) (rounded_mono le)
  · exact Int.not_le.1 fun le => Int.not_le.2 (gt.1 h) (rounded_mono le)
  · rw [rounded_of_le hm, rounded_of_le hn]
    exact em _

/-- A name of the scope is compared with a number next to 2^53, and with one after it. -/
theorem integers_compared_sample :
    OrderedAs [("n", .int 9007199254740991)] (param "n") (const (.int 9007199254740992))
      9007199254740991 9007199254740992 ∧
    OrderedAs [("n", .int 9007199254740993)] (param "n") (const (.int 9007199254740995))
      9007199254740993 9007199254740995 :=
  ⟨(integers_compared (m := 9007199254740991) (n := 9007199254740992) rfl rfl).2.2.2.2
      (by decide) (by decide),
    (integers_compared (m := 9007199254740993) (n := 9007199254740995) rfl rfl).2.2.2.1.2
      (.inr (by decide))⟩

/-- Two integers after 2^53, of which none of `<`, `==` and `>` holds, but both of `<=` and
`>=`. -/
theorem comparison_not_total :
    let a := const (.int 9007199254740992)
    let b := const (.int 9007199254740993)
    ¬ Holds [] .lt a b ∧ ¬ Holds [] .eq a b ∧ ¬ Holds [] .gt a b ∧ Holds [] .ltEq a b ∧
      Holds [] .gtEq a b ∧ ¬ OrderedAs [] a b 9007199254740992 9007199254740993 := by
  refine ⟨nofun, nofun, nofun, rfl, rfl, fun h => ?_⟩
  cases h.lt.2 (by decide)

end Tree
end StagedMapping
