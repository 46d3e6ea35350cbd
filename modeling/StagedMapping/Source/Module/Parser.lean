import StagedMapping.Source.Lexer
import StagedMapping.Source.Module
import StagedMapping.Source.Statement.Parser

/-! Reading modules. `readDeclarations` goes through the declarations of a source; where
one cannot be read it notes the problem and goes on at the next place that looks like the
start of a declaration (`Cursor.recover`), so one reading reports several problems.
`Module.parse` reads a source text. -/
namespace StagedMapping.Source
variable {n : Nat}

/-! ### Members of classes -/

/-- Names separated by commas. -/
def readNames (c : Cursor n) : Read (List String) c :=
  c.separated (·.isMark .comma) Cursor.identifier

/-- Type parameters in brackets, if there are any. -/
def readTypeParams (c : Cursor n) : ReadSome (List String) c := do
  match c.eat? (·.isMark .leftBracket) with
  | none => return .stay [] c
  | some opening =>
    let names ← readNames opening.next
    let closing ← names.next.expect (·.isMark .rightBracket) "']' after type parameters"
    return ((opening.andThen names).andThen closing).toReach.give names.value

def access? : TokenKind → Option Access
  | .keyword .readonlyWord => some .readOnly
  | .keyword .writeonlyWord => some .writeOnly
  | _ => none

/-- A word that restricts the access, if there is one. -/
def readAccess (c : Cursor n) : Reach Access c :=
  match c.take? access? with
  | some s => s.toReach
  | none => .stay .readWrite c

def readField (c : Cursor n) : Read Field c := do
  let access := readAccess c
  let name ← access.next.identifier
  let colon ← name.next.expect (·.isMark .colon) "':' after field name"
  let type ← readType colon.next
  return (((access.andThen name).andThen colon).andThen type).give
    ⟨⟨c.span.start, type.next.previousEnd⟩, access.value, name.value, type.value⟩

def readParam (c : Cursor n) : Read Param c := do
  let name ← c.identifier
  let colon ← name.next.expect (·.isMark .colon) "':' after parameter name"
  let type ← readType colon.next
  let value ← readValue type.next
  return (((name.andThen colon).andThen type).andMaybe value).give
    ⟨⟨c.span.start, value.next.previousEnd⟩, name.value, type.value, value.value⟩

/-- Parameters separated by commas, up to a closing parenthesis. -/
def readParams (c : Cursor n) : ReadSome (List Param) c := do
  if c.kind.isMark .rightParen then return .stay [] c
  let first ← readParam c
  match first.next.eat? (·.isMark .comma) with
  | none => return first.toReach.give [first.value]
  | some sep =>
    have := first.lt
    have := sep.lt
    let more ← readParams sep.next
    return ((first.andThen sep).andMaybe more).toReach.give (first.value :: more.value)
termination_by c.size

/-- Three dots, or an indented body. -/
def readBody (c : Cursor n) : Read (Option (List Statement)) c := do
  match c.eat? (·.isMark .ellipsis) with
  | some dots => return dots.give none
  | none =>
    let opening ← readIndent c
    let body ← readStatements opening.next
    let closing ← body.next.expect TokenKind.isDedent "dedent after method body"
    return ((opening.andMaybe body).andThen closing).give (some body.value)

/-- A method, after the word that starts it. -/
def readMethod (start : Nat) (c : Cursor n) : Read Method c := do
  let name ← c.identifier
  let opening ← name.next.expect (·.isMark .leftParen) "'(' after method name"
  let params ← readParams opening.next
  let closing ← params.next.expect (·.isMark .rightParen) "')' after parameters"
  let returns ← readTypeAfter .arrow closing.next
  let colon ← returns.next.expect (·.isMark .colon) "':' after method signature"
  let body ← readBody colon.next
  let signature := ((name.andThen opening).andMaybe params).andThen closing
  return (((signature.andMaybe returns).andThen colon).andThen body).give
    ⟨⟨start, body.next.previousEnd⟩, name.value, params.value, returns.value, body.value⟩

/-! ### Classes -/

/-- One member of a class; `pass` and a text are members that say nothing. -/
inductive Member where
  | field (f : Field)
  | method (m : Method)
  | nothing
  deriving Repr

def readMember (c : Cursor n) : Read Member c := do
  match c.eat? (·.isWord .defWord) with
  | some word =>
    let m ← readMethod c.span.start word.next
    return (word.andThen m).give (.method m.value)
  | none =>
    match c.eat? fun k => k.isWord .passWord || k.isString with
    | some s => return s.give .nothing
    | none =>
      let f ← readField c
      return f.give (.field f.value)

/-- The members up to the end of the block, given the names of the fields before them. A
field may not repeat one of those names. -/
def readClassMembers (cls : String) (known : List String) (c : Cursor n) :
    ReadSome (List Member) c := do
  have := c.toLine.le
  if c.toLine.next.atBlockEnd then return c.toLine.give []
  let first ← readMember c.toLine.next
  have := first.lt
  match first.value with
  | .field f =>
    if known.contains f.name then throw (first.next.fault (.repeatedField cls f.name) f.span)
    let more ← readClassMembers cls (f.name :: known) first.next
    return (c.toLine.andMaybe (first.andMaybe more).toReach).give (.field f :: more.value)
  | m =>
    let more ← readClassMembers cls known first.next
    return (c.toLine.andMaybe (first.andMaybe more).toReach).give (m :: more.value)
termination_by c.size

def Member.field? : Member → Option Field
  | field f => some f
  | _ => none

def Member.method? : Member → Option Method
  | method m => some m
  | _ => none

/-- A class, after the word that starts it. -/
def readClass (start : Nat) (decorators : List Decorator) (c : Cursor n) : Read Class c := do
  let name ← c.identifier
  let params ← readTypeParams name.next
  let opening ← readColon "class header" params.next
  let members ← readClassMembers name.value [] opening.next
  let closing ← members.next.expect TokenKind.isDedent "dedent after class body"
  let header := (name.andMaybe params).andThen opening
  return ((header.andMaybe members).andThen closing).give
    { span := ⟨start, closing.next.previousEnd⟩
      decorators
      name := name.value
      typeParams := params.value
      fields := members.value.filterMap Member.field?
      methods := members.value.filterMap Member.method? }

/-! ### Declarations -/

/-- Types in parentheses, if there are any. -/
def readDecoratorArgs (c : Cursor n) : ReadSome (List TypeExpr) c := do
  match c.eat? (·.isMark .leftParen) with
  | none => return .stay [] c
  | some opening =>
    match opening.next.eat? (·.isMark .rightParen) with
    | some closing => return (opening.andThen closing).toReach.give []
    | none =>
      let args ← readTypes opening.next
      let closing ← args.next.expect (·.isMark .rightParen) "')' after decorator arguments"
      return ((opening.andThen args).andThen closing).toReach.give args.value

/-- Lines that start with `@`. -/
def readDecorators (c : Cursor n) : ReadSome (List Decorator) c := do
  match c.eat? (·.isMark .at) with
  | none => return .stay [] c
  | some sign =>
    have := sign.lt
    let name ← sign.next.identifier
    have := name.lt
    let args ← readDecoratorArgs name.next
    have := args.le
    let line ← args.next.expect TokenKind.isNewline "newline after decorator"
    have := line.lt
    let more ← readDecorators line.next
    let decorator := ⟨⟨c.span.start, args.next.previousEnd⟩, name.value, args.value⟩
    let passed := ((sign.andThen name).andMaybe args).andThen line
    return (passed.andMaybe more).toReach.give (decorator :: more.value)
termination_by c.size

/-- What an import names: a path, and whether every type under it is meant. -/
def readImportPath (c : Cursor n) : Read (List String × Bool) c := do
  let first ← c.identifier
  match first.next.eat? (·.isMark .colonColon) with
  | none => return first.give ([first.value], false)
  | some sep =>
    have := first.lt
    have := sep.lt
    match sep.next.eat? (·.isOperator .star) with
    | some star => return ((first.andThen sep).andThen star).give ([first.value], true)
    | none =>
      let more ← readImportPath sep.next
      return ((first.andThen sep).andThen more).give (first.value :: more.value.1, more.value.2)
termination_by c.size

/-- The name after `as`, if there is one. -/
def readAlias (c : Cursor n) : ReadSome (Option String) c := do
  match c.eat? (·.isWord .asWord) with
  | none => return .stay none c
  | some word =>
    let name ← word.next.identifier
    return (word.andThen name).toReach.give (some name.value)

/-- An import, after the word that starts it. -/
def readImport (start : Nat) (c : Cursor n) : Read Declaration c := do
  let path ← readImportPath c
  if path.value.2 then
    return path.give (.importAll ⟨start, path.next.previousEnd⟩ path.value.1)
  let rename ← readAlias path.next
  if path.value.1.length < 2 then throw (rename.next.fault .shortImport rename.next.span)
  return (path.andMaybe rename).give
    (.importType ⟨start, rename.next.previousEnd⟩ path.value.1 rename.value)

/-- A namespace, after the word that starts it and stands at `word`. -/
def readSpace (start : Nat) (word : Span) (c : Cursor n) : Read Declaration c := do
  if c.namespaced then throw (c.fault .secondNamespace word)
  let path ← readPath c.inNamespace.next
  return (c.inNamespace.andThen path).give (.space ⟨start, path.next.previousEnd⟩ path.value)

/-- The text that a declaration may consist of. -/
def text? : TokenKind → Option String
  | .string text => some text
  | _ => none

/-- Nothing but a class may be decorated. -/
def refuseDecorators (what : String) (decorators : List Decorator) (c : Cursor n) :
    Except (Failure n) Unit :=
  match decorators with
  | [] => .ok ()
  | d :: _ => .error (c.fault (.decorated what) d.span)

/-- The declaration after its decorators. -/
def readDecorated (start : Nat) (decorators : List Decorator) (c : Cursor n) :
    Read Declaration c := do
  match c.eat? (·.isWord .namespaceWord) with
  | some word =>
    refuseDecorators "namespace" decorators c
    let d ← readSpace start c.span word.next
    return word.andThen d
  | none =>
    match c.eat? (·.isWord .importWord) with
    | some word =>
      refuseDecorators "import" decorators c
      let d ← readImport start word.next
      return word.andThen d
    | none =>
      match c.eat? (·.isWord .classWord) with
      | some word =>
        let d ← readClass start decorators word.next
        return (word.andThen d).give (.cls d.value)
      | none => throw (c.unexpected "declaration")

def readDeclaration (c : Cursor n) : Read Declaration c := do
  match c.take? text? with
  | some s =>
    let line := s.next.optional TokenKind.isNewline
    return (s.andMaybe line).give (.doc ⟨c.span.start, line.next.previousEnd⟩ s.value)
  | none =>
    let decorators ← readDecorators c
    let d ← readDecorated c.span.start decorators.value decorators.next
    return decorators.andThen d

/-! ### Modules -/

/-- A token at which reading may go on after a problem. -/
def startsDeclaration (k : TokenKind) : Bool :=
  k.isWord .classWord || k.isWord .importWord || k.isWord .namespaceWord || k.isMark .at

/-- The place to go on after a problem: past the token at the cursor, and then past the
rest of the line or up to the start of a declaration, whichever comes first. -/
def Cursor.recover (c : Cursor n) : Cursor n :=
  ((c.advance.skipWhile fun k => !startsDeclaration k && !k.isNewline).optional
    TokenKind.isNewline).next

theorem Cursor.recover_size_le (c : Cursor n) : c.recover.size ≤ c.size - 1 :=
  c.advance_size ▸ Nat.le_trans (Reach.le _) (c.advance.skipWhile_size_le _)

/-- The start of the next declaration. -/
def Cursor.toDeclaration (c : Cursor n) : Cursor n := c.skipNewlines.skipDedents

theorem Cursor.toDeclaration_size_le (c : Cursor n) : c.toDeclaration.size ≤ c.size :=
  Nat.le_trans (c.skipNewlines.skipWhile_size_le _) (c.skipWhile_size_le _)

/-- The declarations from a place on, and the problems on the way. -/
def readDeclarations {n : Nat} (c : Cursor n) : List Declaration × List Problem :=
  if c.toDeclaration.size = 0 then ([], [])
  else
    have := c.toDeclaration_size_le
    match readDeclaration c.toDeclaration.rebase with
    | .ok d =>
      have : d.next.size < c.toDeclaration.size := d.lt
      let (declarations, problems) := readDeclarations d.next
      (d.value :: declarations, problems)
    | .error f =>
      have := f.place.recover_size_le
      have : f.place.size ≤ c.toDeclaration.size := f.place.size_le
      let (declarations, problems) := readDeclarations f.place.recover
      (declarations, f.problem :: problems)
termination_by c.size

namespace Module

def ofTokens (tokens : List Token) : Except (List Problem) Module :=
  match readDeclarations (Cursor.start tokens) with
  | (declarations, []) => .ok ⟨declarations⟩
  | (_, problems) => .error problems

/-- Reads a source; problems with its tokens come alone. -/
def parse (source : String) : Except (List Problem) Module := do ofTokens (← lex source)

end Module
end StagedMapping.Source
