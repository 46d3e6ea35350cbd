import Mathlib
import StagedMapping.Tree.Eval

/-! Expressions of integers. Such an expression has an exact value, over all the integers
(`Tree.exact`), and so has each of its subexpressions; in order of evaluation
(`Tree.inOrder`) an operation fails if it has no exact result or one of more than 64 bits
(`Tree.fault?`). The evaluation of the expression is its exact value, or the failure of the
first of its subexpressions that fails (`Tree.eval_integer`). -/
namespace StagedMapping

/-! ### Sixty-four bits -/

/-- An integer of 64 bits. -/
def Fits (n : Int) : Prop := -2 ^ 63 ≤ n ∧ n < 2 ^ 63

instance (n : Int) : Decidable (Fits n) := inferInstanceAs (Decidable (_ ∧ _))

theorem fits_toInt (n : Int64) : Fits n.toInt := ⟨n.le_toInt, n.toInt_lt⟩

theorem Fits.toInt_ofInt {n : Int} (h : Fits n) : (Int64.ofInt n).toInt = n :=
  Int64.toInt_ofInt_of_le h.1 h.2

theorem checked_eq (n : Int) :
    Number.checked n = if Fits n then some (Int64.ofInt n) else none := by
  have min : Int64.minValue.toInt = -2 ^ 63 := by decide
  have max : Int64.maxValue.toInt = 2 ^ 63 - 1 := by decide
  rw [Number.checked, min, max]
  congr 1
  exact propext (and_congr_right fun _ => Int.le_sub_one_iff)

/-- A quotient is too large only for the least integer and the divisor minus one. -/
theorem fits_tdiv {a b : Int} (ha : Fits a) (hb : b ≠ 0) :
    Fits (a.tdiv b) ↔ ¬ (a = -2 ^ 63 ∧ b = -1) := by
  obtain ⟨low, high⟩ := ha
  have size : (a.tdiv b).natAbs = a.natAbs / b.natAbs := Int.natAbs_tdiv a b
  by_cases one : b.natAbs = 1
  · obtain rfl | rfl : b = 1 ∨ b = -1 := by omega
    · rw [Int.tdiv_one]
      exact iff_of_true ⟨low, high⟩ (by omega)
    · rw [Int.tdiv_neg, Int.tdiv_one, Fits]
      omega
  · -- any other divisor at least halves the size
    have half : a.natAbs / b.natAbs ≤ a.natAbs / 2 := Nat.div_le_div_left (by omega) (by decide)
    have bound : Fits (a.tdiv b) := ⟨by omega, by omega⟩
    exact iff_of_true bound (by omega)

/-! ### Exact values -/

/-- The result over all the integers: a quotient is rounded toward zero, and a remainder has
the sign of the dividend. -/
def BinaryOp.exact : BinaryOp → Int → Int → Int
  | add, x, y => x + y
  | sub, x, y => x - y
  | mul, x, y => x * y
  | div, x, y => x.tdiv y
  | mod, x, y => x.tmod y
  | _, _, _ => 0

/-- The failure of an operation whose exact result does not fit. -/
def overflow? (symbol : String) (n : Int) : Option EvalError :=
  if Fits n then none else some (.overflow symbol)

theorem overflow?_eq_some {symbol : String} {n : Int} {e : EvalError} :
    overflow? symbol n = some e ↔ ¬ Fits n ∧ .overflow symbol = e := by
  simp [overflow?]

theorem overflow?_eq_none {symbol : String} {n : Int} : overflow? symbol n = none ↔ Fits n := by
  simp [overflow?]

/-- Why an operation on integers has no result of 64 bits: the divisor is zero, or else it is
the remainder of the least integer by minus one, or the exact result does not fit. -/
def BinaryOp.fault? (op : BinaryOp) (x y : Int) : Option EvalError :=
  if (op = div ∨ op = mod) ∧ y = 0 then some .divisionByZero
  else if op = mod ∧ x = -2 ^ 63 ∧ y = -1 then some (.overflow op.symbol)
  else overflow? op.symbol (op.exact x y)

theorem BinaryOp.fits_of_fault {op : BinaryOp} {x y : Int} (h : op.fault? x y = none) :
    Fits (op.exact x y) := by
  unfold fault? at h
  split at h
  · cases h
  · split at h
    · cases h
    · exact overflow?_eq_none.1 h

namespace Tree

/-- Integers and names of integers, and what negations, absolute values and the operations of
arithmetic make of them. -/
inductive IsInteger (scope : Scope) : Tree → Prop
  | const (n : Int64) : IsInteger scope (.const (.int n))
  | param {name : String} {n : Int64} (h : Bindings.get? scope name = some (.int n)) :
      IsInteger scope (.param name)
  | neg {t : Tree} (ht : IsInteger scope t) : IsInteger scope (.unary .neg t)
  | abs {t : Tree} (ht : IsInteger scope t) : IsInteger scope (.call t .abs [])
  | binary {op : BinaryOp} (hop : op.isBoolean = false) {lhs rhs : Tree}
      (hl : IsInteger scope lhs) (hr : IsInteger scope rhs) :
      IsInteger scope (.binary op lhs rhs)

/-- The value of an expression of integers over all the integers. -/
def exact (scope : Scope) : Tree → Int
  | const (.int n) => n.toInt
  | param name =>
    match Bindings.get? scope name with
    | some (.int n) => n.toInt
    | _ => 0
  | unary .neg t => -exact scope t
  | unary .not _ => 0
  | call t .abs _ => (exact scope t).natAbs
  | binary op lhs rhs => op.exact (exact scope lhs) (exact scope rhs)
  | _ => 0

/-- The subexpressions in the order of their evaluation. -/
def inOrder : Tree → List Tree
  | unary op t => t.inOrder ++ [unary op t]
  | call t method args => t.inOrder ++ [call t method args]
  | binary op lhs rhs => lhs.inOrder ++ rhs.inOrder ++ [binary op lhs rhs]
  | t => [t]

/-- Why the operation at the top of an expression fails on the exact values of its operands. -/
def fault? (scope : Scope) (t : Tree) : Option EvalError :=
  match t with
  | unary .neg _ => overflow? "-" (t.exact scope)
  | unary .not _ => none
  | call _ .abs _ => overflow? "abs()" (t.exact scope)
  | binary op lhs rhs => op.fault? (lhs.exact scope) (rhs.exact scope)
  | _ => none

/-- The word for the operation at the top of an expression in messages. -/
def operation : Tree → String
  | unary _ _ => "-"
  | call _ _ _ => "abs()"
  | binary op _ _ => op.symbol
  | _ => ""

/-- A division by zero, or a remainder. -/
def DividesByZero (scope : Scope) : Tree → Prop
  | binary op _ rhs => (op = .div ∨ op = .mod) ∧ rhs.exact scope = 0
  | _ => False

/-- The remainder of the least integer by minus one. -/
def IsLeastRest (scope : Scope) : Tree → Prop
  | binary op lhs rhs => op = .mod ∧ lhs.exact scope = -2 ^ 63 ∧ rhs.exact scope = -1
  | _ => False

/-- What an operation fails with, on the exact values of its operands. -/
def FailsWith (scope : Scope) (t : Tree) : EvalError → Prop
  | .divisionByZero => t.DividesByZero scope
  | .overflow symbol => ¬ t.DividesByZero scope ∧
      (¬ Fits (t.exact scope) ∨ t.IsLeastRest scope) ∧ t.operation = symbol
  | _ => False

/-- The failure of the first subexpression that fails. -/
def firstFault? (scope : Scope) (t : Tree) : Option EvalError := t.inOrder.findSome? (fault? scope)

end Tree

/-! ### Operations -/

namespace Value

/-- An exact result, unless there is a failure. -/
def orFault (fault : Option EvalError) (n : Int) : Eval Value :=
  match fault with
  | some e => .error e
  | Option.none => .ok (.int (Int64.ofInt n))

theorem orFault_eq_ok {fault : Option EvalError} {n : Int} {v : Value} :
    orFault fault n = .ok v ↔ fault = Option.none ∧ v = int (Int64.ofInt n) := by
  cases fault <;> simp [orFault, eq_comm]

theorem orFault_eq_error {fault : Option EvalError} {n : Int} {e : EvalError} :
    orFault fault n = .error e ↔ fault = some e := by
  cases fault <;> simp [orFault]

/-- What follows an integer goes on from its exact value. -/
theorem orFault_bind {fault after : Option EvalError} {n result : Int} {f : Value → Eval Value}
    (fits : fault = Option.none → Fits n)
    (hf : ∀ m : Int64, m.toInt = n → f (int m) = orFault after result) :
    orFault fault n >>= f = orFault (fault.or after) result := by
  cases fault with
  | some e => rfl
  | none => exact hf _ (fits rfl).toInt_ofInt

theorem integer_checked (symbol : String) (n : Int) :
    integer symbol (Number.checked n) = orFault (overflow? symbol n) n := by
  rw [checked_eq, overflow?]
  split <;> rfl

theorem negate_int (n : Int64) :
    (int n).negate = orFault (overflow? "-" (-n.toInt)) (-n.toInt) :=
  integer_checked _ _

theorem absolute_int (n : Int64) :
    (int n).absolute = orFault (overflow? "abs()" n.toInt.natAbs) n.toInt.natAbs :=
  integer_checked _ _

theorem rest_eq {m n : Int64} (h : n.toInt ≠ 0) : integer "%" (Number.rest m n) =
    orFault (if m.toInt = -2 ^ 63 ∧ n.toInt = -1 then some (.overflow "%")
      else overflow? "%" (m.toInt.tmod n.toInt)) (m.toInt.tmod n.toInt) := by
  rw [Number.rest, Number.quotient, checked_eq]
  have fits := fits_tdiv (fits_toInt m) h
  split
  case isTrue quotient =>
    rw [if_neg (fits.1 quotient)]
    exact integer_checked _ _
  case isFalse quotient =>
    rw [if_pos (not_not.1 fun h => quotient (fits.2 h))]
    rfl

theorem operate_int {op : BinaryOp} (hop : op.isBoolean = false) (m n : Int64) :
    (int m).operate op (int n) =
      orFault (op.fault? m.toInt n.toInt) (op.exact m.toInt n.toInt) := by
  have zero : n = 0 ↔ n.toInt = 0 := by rw [← Int64.toInt_inj, Int64.toInt_zero]
  cases op <;> cases hop <;> simp only [operate, arithmetic, division, BinaryOp.fault?]
  case add => exact integer_checked _ _
  case sub => exact integer_checked _ _
  case mul => exact integer_checked _ _
  case div =>
    by_cases hn : n.toInt = 0
    · rw [if_pos (zero.2 hn), if_pos ⟨by decide, hn⟩]
      rfl
    · rw [if_neg (mt zero.1 hn), if_neg fun h => hn h.2, if_neg fun h => nomatch h.1]
      exact integer_checked _ _
  case mod =>
    by_cases hn : n.toInt = 0
    · rw [if_pos (zero.2 hn), if_pos ⟨by decide, hn⟩]
      rfl
    · rw [if_neg (mt zero.1 hn), if_neg fun h => hn h.2, rest_eq hn]
      simp only [true_and]
      rfl

end Value

namespace Tree
variable {scope : Scope} {t : Tree}

theorem eval_binary {op : BinaryOp} (hop : op.isBoolean = false) (lhs rhs : Tree) :
    (binary op lhs rhs).eval scope =
      lhs.eval scope >>= fun a => rhs.eval scope >>= fun b => a.operate op b := by
  cases op <;> cases hop <;> rfl

/-! ### Expressions -/

/-- An integer that is the result of an operation without a failure has 64 bits. -/
theorem IsInteger.fits (h : IsInteger scope t) (hf : t.fault? scope = none) :
    Fits (t.exact scope) := by
  cases h with
  | const n => exact fits_toInt n
  | @param name n h =>
    rw [exact, h]
    exact fits_toInt n
  | neg => exact overflow?_eq_none.1 hf
  | abs => exact overflow?_eq_none.1 hf
  | binary => exact BinaryOp.fits_of_fault hf

theorem firstFault?_unary (op : UnaryOp) (t : Tree) :
    (unary op t).firstFault? scope = (t.firstFault? scope).or ((unary op t).fault? scope) := by
  simp [firstFault?, inOrder, List.findSome?_append]

theorem firstFault?_call (t : Tree) (method : Builtin) (args : List Tree) :
    (call t method args).firstFault? scope =
      (t.firstFault? scope).or ((call t method args).fault? scope) := by
  simp [firstFault?, inOrder, List.findSome?_append]

theorem firstFault?_binary (op : BinaryOp) (lhs rhs : Tree) :
    (binary op lhs rhs).firstFault? scope = (lhs.firstFault? scope).or
      ((rhs.firstFault? scope).or ((binary op lhs rhs).fault? scope)) := by
  simp [firstFault?, inOrder, List.findSome?_append]

theorem mem_inOrder (t : Tree) : t ∈ t.inOrder := by
  cases t <;> simp [inOrder]

theorem IsInteger.fits_of_firstFault (h : IsInteger scope t) (hf : t.firstFault? scope = none) :
    Fits (t.exact scope) :=
  h.fits (List.findSome?_eq_none_iff.1 hf t (mem_inOrder t))

/-- The evaluation is the first failure, or else the exact value: by induction over the
expression, as an operation is evaluated after its operands. -/
theorem IsInteger.eval_eq (h : IsInteger scope t) :
    t.eval scope = Value.orFault (t.firstFault? scope) (t.exact scope) := by
  induction h with
  | const n => exact congrArg (fun m => Except.ok (Value.int m)) (Int64.ofInt_toInt n).symm
  | @param name n h =>
    rw [eval, exact, h]
    exact congrArg (fun m => Except.ok (Value.int m)) (Int64.ofInt_toInt n).symm
  | @neg t ht ih =>
    rw [eval, ih, firstFault?_unary]
    refine Value.orFault_bind ht.fits_of_firstFault fun m hm => ?_
    rw [Value.negate_int, hm, fault?, exact]
  | @abs t ht ih =>
    rw [eval, ih, firstFault?_call]
    refine Value.orFault_bind ht.fits_of_firstFault fun m hm => ?_
    show (Value.int m).absolute = _
    rw [Value.absolute_int, hm, fault?, exact]
  | @binary op hop l r hl hr ihl ihr =>
    rw [eval_binary hop, ihl, ihr, firstFault?_binary]
    refine Value.orFault_bind hl.fits_of_firstFault fun m hm =>
      Value.orFault_bind hr.fits_of_firstFault fun n hn => ?_
    rw [Value.operate_int hop, hm, hn, fault?, exact]

theorem IsInteger.of_mem (h : IsInteger scope t) {s : Tree} (hs : s ∈ t.inOrder) :
    IsInteger scope s := by
  induction h with
  | const n => exact List.mem_singleton.1 hs ▸ .const n
  | param h => exact List.mem_singleton.1 hs ▸ .param h
  | neg ht ih =>
    rcases List.mem_append.1 hs with hs | hs
    · exact ih hs
    · exact List.mem_singleton.1 hs ▸ .neg ht
  | abs ht ih =>
    rcases List.mem_append.1 hs with hs | hs
    · exact ih hs
    · exact List.mem_singleton.1 hs ▸ .abs ht
  | binary hop hl hr ihl ihr =>
    rcases List.mem_append.1 hs with hs | hs
    · exact (List.mem_append.1 hs).elim ihl ihr
    · exact List.mem_singleton.1 hs ▸ .binary hop hl hr

theorem IsInteger.fault?_eq_some (h : IsInteger scope t) {e : EvalError} :
    t.fault? scope = some e ↔ t.FailsWith scope e := by
  cases h with
  | const n => cases e <;> simp [fault?, FailsWith, DividesByZero, IsLeastRest, exact, fits_toInt]
  | param h =>
    cases e <;> simp [fault?, FailsWith, DividesByZero, IsLeastRest, exact, h, fits_toInt]
  | neg ht =>
    rw [fault?, overflow?_eq_some]
    cases e <;> simp [FailsWith, DividesByZero, IsLeastRest, operation]
  | abs ht =>
    rw [fault?, overflow?_eq_some]
    cases e <;> simp [FailsWith, DividesByZero, IsLeastRest, operation]
  | @binary op hop l r hl hr =>
    rw [fault?, BinaryOp.fault?]
    split
    case isTrue zero =>
      have zero : (Tree.binary op l r).DividesByZero scope := zero
      cases e <;> simp [FailsWith, zero]
    case isFalse zero =>
      have zero : ¬ (Tree.binary op l r).DividesByZero scope := zero
      split
      case isTrue least =>
        have least : (Tree.binary op l r).IsLeastRest scope := least
        cases e <;> simp [FailsWith, operation, zero, least]
      case isFalse least =>
        have least : ¬ (Tree.binary op l r).IsLeastRest scope := least
        rw [overflow?_eq_some]
        cases e <;> simp [FailsWith, operation, exact, zero, least]

theorem IsInteger.fault?_eq_none (h : IsInteger scope t) :
    t.fault? scope = none ↔ ∀ e, ¬ t.FailsWith scope e := by
  rw [Option.eq_none_iff_forall_ne_some]
  exact forall_congr' fun e => not_congr h.fault?_eq_some

/-- The evaluation of an expression of integers gives its exact value, if it gives anything,
and else the failure of the first subexpression that fails: a division by zero exactly where
the divisor is zero, and an overflow exactly where the divisor is not zero and the exact
result does not have 64 bits or is the remainder of the least integer by minus one. -/
theorem eval_integer (h : IsInteger scope t) :
    (∀ v, t.eval scope = .ok v ↔ (∀ s ∈ t.inOrder, ∀ e, ¬ s.FailsWith scope e) ∧
      ∃ n : Int64, v = .int n ∧ n.toInt = t.exact scope) ∧
    ∀ e, t.eval scope = .error e ↔ ∃ before s after, t.inOrder = before ++ s :: after ∧
      (∀ r ∈ before, ∀ e, ¬ r.FailsWith scope e) ∧ s.FailsWith scope e := by
  have faultless {s : Tree} (hs : s ∈ t.inOrder) := (h.of_mem hs).fault?_eq_none
  have faulty {s : Tree} (hs : s ∈ t.inOrder) (e : EvalError) :=
    (h.of_mem hs).fault?_eq_some (e := e)
  rw [h.eval_eq]
  refine ⟨fun v => ?_, fun e => ?_⟩
  · rw [Value.orFault_eq_ok, firstFault?, List.findSome?_eq_none_iff]
    constructor
    · rintro ⟨none, rfl⟩
      have fits := h.fits (none t (mem_inOrder t))
      exact ⟨fun s hs => (faultless hs).1 (none s hs), _, rfl, fits.toInt_ofInt⟩
    · rintro ⟨never, n, rfl, hn⟩
      exact ⟨fun s hs => (faultless hs).2 (never s hs), by rw [← hn, Int64.ofInt_toInt]⟩
  · rw [Value.orFault_eq_error, firstFault?, List.findSome?_eq_some_iff]
    constructor
    · rintro ⟨before, s, after, split, fails, none⟩
      have hs : s ∈ t.inOrder := by simp [split]
      exact ⟨before, s, after, split,
        fun r hr => (faultless (by simp [split, hr])).1 (none r hr), (faulty hs e).1 fails⟩
    · rintro ⟨before, s, after, split, never, fails⟩
      have hs : s ∈ t.inOrder := by simp [split]
      exact ⟨before, s, after, split, (faulty hs e).2 fails,
        fun r hr => (faultless (by simp [split, hr])).2 (never r hr)⟩

/-- The remainder of the least integer by three, less five, has the value -7. By minus one it
fails, before the division by zero that follows does. -/
theorem eval_integer_least :
    let scope := [("n", .int Int64.minValue)]
    let rest := fun d => binary .mod (param "n") (unary .neg (const (.int d)))
    let seven := binary .sub (rest 3) (const (.int 5))
    let late := binary .div (rest 1) (const (.int 0))
    seven.exact scope = -7 ∧ (∀ s ∈ seven.inOrder, ∀ e, ¬ s.FailsWith scope e) ∧
      ∃ before s after, late.inOrder = before ++ s :: after ∧
        (∀ r ∈ before, ∀ e, ¬ r.FailsWith scope e) ∧ s.FailsWith scope (.overflow "%") := by
  intro scope rest seven late
  have integer (d : Int64) : IsInteger scope (rest d) := .binary rfl (.param rfl) (.neg (.const d))
  obtain ⟨never, n, hn, value⟩ :=
    ((eval_integer (t := seven) (.binary rfl (integer 3) (.const 5))).1 (.int (-7))).1 rfl
  cases hn
  exact ⟨value.symm, never,
    ((eval_integer (t := late) (.binary rfl (integer 1) (.const 0))).2 (.overflow "%")).1 rfl⟩

end Tree
end StagedMapping
