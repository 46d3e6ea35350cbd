import StagedMapping.Source.Cursor
import StagedMapping.Source.Expr

/-! Reading types and expressions. Operators are grouped into levels of rising tightness;
`Level.read` reads an expression whose outermost operator is of a given level or tighter,
and `chain` goes on with the operators of one level, to the left. A choice binds loosest
of all, member access and calls bind tightest. -/
namespace StagedMapping.Source
variable {n : Nat}

/-! ### Types -/

/-- Segments joined by `::`. -/
def readPath (c : Cursor n) : Read (List String) c :=
  c.separated (·.isMark .colonColon) Cursor.identifier

mutual

/-- A path, possibly applied to types in brackets. -/
def readType (c : Cursor n) : Read TypeExpr c := do
  let start := c.span.start
  let path ← readPath c
  match path.next.eat? (·.isMark .leftBracket) with
  | none => return path.give (.named ⟨start, path.next.previousEnd⟩ path.value)
  | some opening =>
    have := path.lt
    have := opening.lt
    let args ← readTypes opening.next
    have := args.lt
    let closing ← args.next.expect (·.isMark .rightBracket) "']' after type arguments"
    let span := ⟨start, closing.next.previousEnd⟩
    return (((path.andThen opening).andThen args).andThen closing).give
      (.applied span path.value args.value)
termination_by 2 * c.size

/-- Types separated by commas. -/
def readTypes (c : Cursor n) : Read (List TypeExpr) c := do
  let first ← readType c
  match first.next.eat? (·.isMark .comma) with
  | none => return first.give [first.value]
  | some sep =>
    have := first.lt
    have := sep.lt
    let more ← readTypes sep.next
    return ((first.andThen sep).andThen more).give (first.value :: more.value)
termination_by 2 * c.size + 1

end

/-! ### Levels of tightness -/

inductive Level where
  | disjunction
  | conjunction
  | negation
  | comparison
  | sum
  | product
  | sign
  deriving DecidableEq, Repr

namespace Level

/-- The next tighter level; after the last come member access and calls. -/
def tighter? : Level → Option Level
  | disjunction => some conjunction
  | conjunction => some negation
  | negation => some comparison
  | comparison => some sum
  | sum => some product
  | product => some sign
  | sign => none

/-- Number of tighter levels. -/
def rank : Level → Nat
  | disjunction => 6
  | conjunction => 5
  | negation => 4
  | comparison => 3
  | sum => 2
  | product => 1
  | sign => 0

theorem rank_tighter {l m : Level} (h : l.tighter? = some m) : m.rank < l.rank := by
  cases l <;> cases h <;> decide

@[simp] theorem rank_disjunction : disjunction.rank = 6 := rfl

theorem rank_lt (l : Level) : l.rank < 7 := by cases l <;> decide

/-- The operation a token writes between two operands of this level. -/
def operation? : Level → TokenKind → Option BinaryOp
  | disjunction, .keyword .orWord => some .or
  | conjunction, .keyword .andWord => some .and
  | comparison, .operator .eqEq => some .eq
  | comparison, .operator .notEq => some .notEq
  | comparison, .operator .lt => some .lt
  | comparison, .operator .ltEq => some .ltEq
  | comparison, .operator .gt => some .gt
  | comparison, .operator .gtEq => some .gtEq
  | sum, .operator .plus => some .add
  | sum, .operator .minus => some .sub
  | product, .operator .star => some .mul
  | product, .operator .slash => some .div
  | product, .operator .percent => some .mod
  | _, _ => none

/-- The operation a token writes before an operand of this level. -/
def leading? : Level → TokenKind → Option UnaryOp
  | negation, .keyword .notWord => some .not
  | sign, .operator .minus => some .neg
  | _, _ => none

end Level

/-! ### Expressions -/

/-- The literal a token is. -/
def literal? : TokenKind → Option Literal
  | .int value => some (.int value)
  | .float value => some (.float value)
  | .string text => some (.string text)
  | .keyword .trueWord => some (.bool true)
  | .keyword .falseWord => some (.bool false)
  | .keyword .noneWord => some .none
  | _ => none

mutual

/-- A whole expression: `value`, or `value if condition else otherwise`. -/
def readExpr (c : Cursor n) : Read Expr c := do
  let value ← Level.disjunction.read c
  match value.next.eat? (·.isWord .ifWord) with
  | none => return value
  | some word =>
    have := value.lt
    have := word.lt
    let condition ← Level.disjunction.read word.next
    have := condition.lt
    let other ← condition.next.expect (·.isWord .elseWord) "'else' in conditional expression"
    have := other.lt
    let otherwise ← readExpr other.next
    let span := value.value.span.merge otherwise.value.span
    return ((((value.andThen word).andThen condition).andThen other).andThen otherwise).give
      (.choice span value.value condition.value otherwise.value)
termination_by 32 * c.size + 18

/-- An expression of level `l` or tighter. -/
def Level.read (l : Level) (c : Cursor n) : Read Expr c := do
  match c.take? l.leading? with
  | some op =>
    have := op.lt
    let operand ← l.read op.next
    let span := ⟨c.span.start, operand.value.span.stop⟩
    return (op.andThen operand).give (.unary span op.value operand.value)
  | none =>
    let first ← l.operand c
    have := first.lt
    let whole ← l.chain first.value first.next
    return first.andMaybe whole
termination_by 32 * c.size + 2 * l.rank + 5

/-- An expression of a level tighter than `l`. -/
def Level.operand (l : Level) (c : Cursor n) : Read Expr c :=
  match h : l.tighter? with
  | some m =>
    have := Level.rank_tighter h
    m.read c
  | none => readPostfix c
termination_by 32 * c.size + 2 * l.rank + 4

/-- Goes on after `left` as long as operators of level `l` follow. -/
def Level.chain (l : Level) (left : Expr) (c : Cursor n) : ReadSome Expr c := do
  match c.take? l.operation? with
  | none => return .stay left c
  | some op =>
    have := op.lt
    have := l.rank_lt
    let right ← l.operand op.next
    have := right.lt
    let span := left.span.merge right.value.span
    let whole ← l.chain (.binary span left op.value right.value) right.next
    return ((op.andThen right).andMaybe whole).toReach
termination_by 32 * c.size

/-- A primary expression with the members and calls after it. -/
def readPostfix (c : Cursor n) : Read Expr c := do
  let first ← readPrimary c
  have := first.lt
  let whole ← readMembers first.value first.next
  return first.andMaybe whole
termination_by 32 * c.size + 3

/-- Goes on after `base` as long as members and calls follow. -/
def readMembers (base : Expr) (c : Cursor n) : ReadSome Expr c := do
  match c.eat? (·.isMark .dot) with
  | some dot =>
    have := dot.lt
    let name ← dot.next.identifier
    have := name.lt
    match name.next.eat? (·.isMark .leftParen) with
    | some opening =>
      have := opening.lt
      let args ← readArgs opening.next
      have := args.le
      let closing ← args.next.expect (·.isMark .rightParen) "')' after arguments"
      have := closing.lt
      let span := ⟨base.span.start, closing.next.previousEnd⟩
      let whole ← readMembers (.method span base name.value args.value) closing.next
      let called := (opening.andMaybe args).andThen closing
      return (((dot.andThen name).andThen called).andMaybe whole).toReach
    | none =>
      let span := ⟨base.span.start, name.next.previousEnd⟩
      let whole ← readMembers (.field span base name.value) name.next
      return ((dot.andThen name).andMaybe whole).toReach
  | none =>
    match c.eat? (·.isMark .leftParen) with
    | some opening =>
      have := opening.lt
      let args ← readArgs opening.next
      have := args.le
      let closing ← args.next.expect (·.isMark .rightParen) "')' after arguments"
      have := closing.lt
      let span := ⟨base.span.start, closing.next.previousEnd⟩
      let whole ← readMembers (.call span base args.value) closing.next
      return (((opening.andMaybe args).andThen closing).andMaybe whole).toReach
    | none => return .stay base c
termination_by 32 * c.size

/-- Expressions separated by commas, up to a closing parenthesis. -/
def readArgs (c : Cursor n) : ReadSome (List Expr) c := do
  if c.kind.isMark .rightParen then return .stay [] c
  let first ← readExpr c
  match first.next.eat? (·.isMark .comma) with
  | none => return first.toReach.give [first.value]
  | some sep =>
    have := first.lt
    have := sep.lt
    let more ← readArgs sep.next
    return ((first.andThen sep).andMaybe more).toReach.give (first.value :: more.value)
termination_by 32 * c.size + 20

/-- A literal, a name, an expression in parentheses or a construction. -/
def readPrimary (c : Cursor n) : Read Expr c := do
  let start := c.span.start
  match c.take? literal? with
  | some s => return s.give (.literal ⟨start, s.next.previousEnd⟩ s.value)
  | none =>
    match c.take? Cursor.identifier? with
    | some s => return s.give (.ident ⟨start, s.next.previousEnd⟩ s.value)
    | none =>
      match c.eat? (·.isMark .leftParen) with
      | some opening =>
        have := opening.lt
        let inner ← readExpr opening.next
        have := inner.lt
        let closing ← inner.next.expect (·.isMark .rightParen) "')' after expression"
        let span := ⟨start, closing.next.previousEnd⟩
        return ((opening.andThen inner).andThen closing).give (.paren span inner.value)
      | none =>
        match c.eat? (·.isWord .newWord) with
        | some word =>
          have := word.lt
          let type ← readType word.next
          have := type.lt
          let opening ← type.next.expect (·.isMark .leftParen) "'(' after type in 'new' expression"
          have := opening.lt
          let args ← readArguments opening.next
          have := args.le
          let closing ← args.next.expect (·.isMark .rightParen) "')' after initializers"
          let span := ⟨start, closing.next.previousEnd⟩
          return ((((word.andThen type).andThen opening).andMaybe args).andThen closing).give
            (.construct span type.value args.value)
        | none => throw (c.unexpected "expression")
termination_by 32 * c.size + 2

/-- Arguments of a construction, up to a closing parenthesis. -/
def readArguments (c : Cursor n) : ReadSome (List Argument) c := do
  if c.kind.isMark .rightParen then return .stay [] c
  let first ← readArgument c
  match first.next.eat? (·.isMark .comma) with
  | none => return first.toReach.give [first.value]
  | some sep =>
    have := first.lt
    have := sep.lt
    let more ← readArguments sep.next
    return ((first.andThen sep).andMaybe more).toReach.give (first.value :: more.value)
termination_by 32 * c.size + 20

/-- One argument of a construction, named if a name and an equals sign start it. -/
def readArgument (c : Cursor n) : Read Argument c := do
  match c.assigned? with
  | some name =>
    have := name.lt
    let value ← readExpr name.next
    return (name.andThen value).give (.named name.value value.value)
  | none =>
    let value ← readExpr c
    return value.give (.positional value.value)
termination_by 32 * c.size + 19

end

end StagedMapping.Source
