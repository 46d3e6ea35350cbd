import StagedMapping.Source.Expr.Parser
import StagedMapping.Source.Expr.Printer
import StagedMapping.Source.Statement

/-! Reading statements. A simple statement ends with its line or its block (`readLine`);
`readBlock` reads what follows the header of a compound one. -/
namespace StagedMapping.Source
variable {n : Nat}

/-! ### Layout -/

/-- The line break and the indentation that open a block. -/
def readIndent (c : Cursor n) : Read Unit c := do
  let line ← c.expect TokenKind.isNewline "newline after ':'"
  let deeper ← line.next.expect TokenKind.isIndent "indented block"
  return line.andThen deeper

/-- The colon after a header, and the start of its block. -/
def readColon (after : String) (c : Cursor n) : Read Unit c := do
  let colon ← c.expect (·.isMark .colon) ("':' after " ++ after)
  let deeper ← readIndent colon.next
  return colon.andThen deeper

/-! ### Simple statements -/

/-- A type after `mark`, if the mark is there. -/
def readTypeAfter (mark : Punctuation) (c : Cursor n) : ReadSome (Option TypeExpr) c := do
  match c.eat? (·.isMark mark) with
  | none => return .stay none c
  | some s =>
    let type ← readType s.next
    return (s.andThen type).toReach.give (some type.value)

/-- An expression after an equals sign, if the sign is there. -/
def readValue (c : Cursor n) : ReadSome (Option Expr) c := do
  match c.eat? (·.isOperator .eq) with
  | none => return .stay none c
  | some s =>
    let value ← readExpr s.next
    return (s.andThen value).toReach.give (some value.value)

/-- One local: its type and its value may be left out, but not both. -/
def readBinding (c : Cursor n) : Read Binding c := do
  let span := c.span
  let name ← c.identifier
  let type ← readTypeAfter .colon name.next
  let value ← readValue type.next
  if type.value.isNone && value.value.isNone then
    throw (value.next.fault (.bareLocal name.value) span)
  return ((name.andMaybe type).andMaybe value).give
    ⟨⟨name.value, span⟩, type.value, value.value⟩

/-- Locals separated by commas. -/
def readBindings (c : Cursor n) : Read (List Binding) c :=
  c.separated (·.isMark .comma) readBinding

/-- What follows `return`. -/
def readReturned (c : Cursor n) : ReadSome (Option Expr) c := do
  if c.atLineEnd then return .stay none c
  let value ← readExpr c
  return value.toReach.give (some value.value)

/-- A statement without a block, the end of its line not included. -/
def readSimple (c : Cursor n) : Read Statement c := do
  let start := c.span.start
  match c.eat? (·.isWord .returnWord) with
  | some word =>
    let value ← readReturned word.next
    return (word.andMaybe value).give (.ret ⟨start, value.next.previousEnd⟩ value.value)
  | none =>
    match c.eat? (·.isWord .passWord) with
    | some word => return word.give (.pass ⟨start, word.next.previousEnd⟩)
    | none =>
      match c.eat? (·.isWord .letWord) with
      | some word =>
        let bindings ← readBindings word.next
        return (word.andThen bindings).give
          (.letIn ⟨start, bindings.next.previousEnd⟩ bindings.value)
      | none =>
        match c.assigned? with
        | some target =>
          let value ← readExpr target.next
          return (target.andThen value).give
            (.assign ⟨start, value.next.previousEnd⟩ target.value value.value)
        | none =>
          let value ← readExpr c
          if value.next.kind.isOperator .eq then
            throw (value.next.fault (.cannotAssign value.value.text) value.value.span)
          return value.give (.expr ⟨start, value.next.previousEnd⟩ value.value)

/-- A statement without a block, up to the end of its line. -/
def readLine (c : Cursor n) : Read Statement c := do
  let s ← readSimple c
  unless s.next.atLineEnd do throw (s.next.unexpected "end of statement")
  return s

/-! ### Compound statements -/

mutual

def readStatement (c : Cursor n) : Read Statement c := do
  let start := c.span.start
  match c.eat? (·.isWord .ifWord) with
  | some word =>
    have := word.lt
    let condition ← readExpr word.next
    have := condition.lt
    let body ← readBlock "if condition" condition.next
    have := body.lt
    let others ← readElifs body.next
    have := others.le
    let otherwise ← readElse others.next
    let span := ⟨start, otherwise.next.previousEnd⟩
    let opened := (word.andThen condition).andThen body
    return ((opened.andMaybe others).andMaybe otherwise).give
      (.branch span condition.value body.value others.value otherwise.value)
  | none =>
    match c.eat? (·.isWord .whileWord) with
    | some word =>
      have := word.lt
      let condition ← readExpr word.next
      have := condition.lt
      let body ← readBlock "while condition" condition.next
      let span := ⟨start, body.next.previousEnd⟩
      return ((word.andThen condition).andThen body).give (.loop span condition.value body.value)
    | none => readLine c
termination_by 4 * c.size

/-- The `elif` branches of a statement. -/
def readElifs (c : Cursor n) : ReadSome (List (Expr × List Statement)) c := do
  match c.eat? (·.isWord .elifWord) with
  | none => return .stay [] c
  | some word =>
    have := word.lt
    let condition ← readExpr word.next
    have := condition.lt
    let body ← readBlock "elif condition" condition.next
    have := body.lt
    let more ← readElifs body.next
    let opened := (word.andThen condition).andThen body
    return (opened.andMaybe more).toReach.give ((condition.value, body.value) :: more.value)
termination_by 4 * c.size

/-- The `else` branch of a statement. -/
def readElse (c : Cursor n) : ReadSome (Option (List Statement)) c := do
  match c.eat? (·.isWord .elseWord) with
  | none => return .stay none c
  | some word =>
    have := word.lt
    let body ← readBlock "'else'" word.next
    return (word.andThen body).toReach.give (some body.value)
termination_by 4 * c.size

/-- The colon after a header, and the indented statements under it. -/
def readBlock (after : String) (c : Cursor n) : Read (List Statement) c := do
  let opening ← readColon after c
  have := opening.lt
  let body ← readStatements opening.next
  have := body.le
  let closing ← body.next.expect TokenKind.isDedent "dedent after block"
  return ((opening.andMaybe body).andThen closing).give body.value
termination_by 4 * c.size + 2

/-- Statements up to the end of their block. -/
def readStatements (c : Cursor n) : ReadSome (List Statement) c := do
  have := c.toLine.le
  if c.toLine.next.atBlockEnd then return c.toLine.give []
  let first ← readStatement c.toLine.next
  have := first.lt
  let more ← readStatements first.next
  return (c.toLine.andMaybe (first.andMaybe more).toReach).give (first.value :: more.value)
termination_by 4 * c.size + 1

end

end StagedMapping.Source
