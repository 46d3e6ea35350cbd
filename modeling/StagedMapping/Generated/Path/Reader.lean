import StagedMapping.Generated.Identifier
import StagedMapping.Generated.Lexeme.Reader
import StagedMapping.Generated.Path

/-! Reading paths (`Path.ofText?`) as the generated language writes them, with everything that
a word may be applied to: types, lifetimes, constants, and names that are set or bounded.
Types are read into code at once, and the code is written in one way: lifetimes come first,
no comma ends a list, and a type that is only a list of bounds gets the word `dyn`. Lengths,
blocks and what stands behind a `!` are taken as they are. -/
namespace StagedMapping.Generated.Path
open Reader

/-! ### Kinds of lexemes -/

def isName : Lexeme → Bool
  | .word w => !isKeyword w
  | _ => false

def isLifetime : Lexeme → Bool
  | .lifetime _ => true
  | _ => false

def isConstant : Lexeme → Bool
  | .literal _ => true
  | .word w => w = "true" || w = "false"
  | _ => false

def isNumber : Lexeme → Bool
  | .literal text => text.toList.head?.any Char.isDigit
  | _ => false

/-- A text, with escapes or without. -/
def isText : Lexeme → Bool
  | .literal text => text.toList.head?.any fun c => c = '"' || c = 'r'
  | _ => false

/-- A name that a type may be said to depend on. -/
def isCaptured (l : Lexeme) : Bool := isLifetime l || isName l || l.text = "Self"

/-! ### What stands in front -/

def startsFunction (ls : List Lexeme) : Bool :=
  ["fn", "unsafe", "extern"].any fun w => stands w ls

/-- A word with which a type may start. -/
def startsPath (ls : List Lexeme) : Bool :=
  ls.head?.any isName || ["super", "self", "Self", "crate"].any fun w => stands w ls

/-- Types stand behind the word that was read. -/
def startsArgs (ls : List Lexeme) : Bool :=
  (stands "<" ls && !stands "<=" ls && !stands "<<=" ls) ||
    (stands "::" ls && stands "<" (ls.drop 2))

/-- Parameters stand behind the word that was read, perhaps after a separator. -/
def startsParams (ls : List Lexeme) : Bool :=
  stands "(" ls || (stands "::" ls && stands "(" (ls.drop 2))

/-- One more bound stands in front. -/
def startsBound : List Lexeme → Bool
  | .word _ :: _ | .lifetime _ :: _ => true
  | ls => stands "::" ls || stands "?" ls || stands "(" ls

/-- The name of a parameter stands in front; only the first one may be `self`. -/
def startsParamName (isFirst : Bool) (ls : List Lexeme) : Bool :=
  (ls.head?.any isName || stands "_" ls || (isFirst && stands "self" ls)) &&
    stands ":" (ls.drop 1) && !stands "::" (ls.drop 1)

/-! ### Parts of types -/

/-- Names of a kind up to a closing bracket, and what follows. -/
def names? (p : Lexeme → Bool) : List Lexeme → Option (List Code × List Lexeme)
  | [] => none
  | l :: rest =>
    if stands ">" [l] then some ([], rest)
    else if p l then
      match rest with
      | [] => none
      | mark :: rest =>
        if stands "," [mark] then
          (names? p rest).map fun (names, rest) => ([.symbol l.text] :: names, rest)
        else if stands ">" [mark] then some ([[.symbol l.text]], rest)
        else none
    else none

/-- Names of a kind in brackets, behind a word. -/
def readNames (word : String) (p : Lexeme → Bool) : Reader Code := do
  expect word
  expect "<"
  let (names, rest) ← names? p (← get)
  set rest
  return .symbol word :: angles names

/-- The lifetimes that are bound in front of a type, if there are any. -/
def readBinder : Reader Code := do
  if ← sees "for" then readNames "for" isLifetime else return []

/-- How a function is called from outside, if it is said. -/
def readConvention : Reader Code := do
  if ← takes "extern" then return .symbol "extern" :: (← takeIf isText) else return []

/-- The constant in front, if there is one: a literal, a negative number or a block. -/
def readConstant? : Reader (Option Code) := do
  let ls ← get
  if ls.head?.any isConstant then return some (← takeIf isConstant)
  else if stands "-" ls && (ls.drop 1).head?.any isNumber then
    expect "-"
    return some (.symbol "-" :: (← takeIf isNumber))
  else if stands "\x7b" ls then return some (← takeGroup)
  else return none

/-! ### Types -/

/-- An argument of a word. -/
structure Arg where
  isLifetime : Bool
  code : Code

/-- Arguments between brackets; no brackets are written around nothing. -/
def argsCode (args : List Arg) : Code :=
  if args.isEmpty then []
  else angles (((args.filter (·.isLifetime)) ++ args.filter (!·.isLifetime)).map (·.code))

/-- A lifetime, a trait, or a list of names that a type depends on. -/
structure Bound where
  isTrait : Bool
  code : Code

/-- Bounds with signs between them. -/
def boundsCode : List Bound → Code
  | [] => []
  | [bound] => bound.code
  | bound :: rest => bound.code ++ .symbol "+" :: boundsCode rest

/-- A type, as far as what follows it depends on it. -/
inductive Form where
  /-- A path of one word. It may be set to a type, or be bounded. -/
  | name (segment : Segment)
  | path
  /-- A single bound that stands for a type. -/
  | bound (bound : Bound)
  | parens
  | other

/-- A type that was read. -/
structure Written where
  form : Form
  code : Code

/-- Bounds that stand for a type; `isOpen` when a sign stands behind the last one. -/
def boundsType (bounds : List Bound) (isOpen : Bool) : Written :=
  let code := .symbol "dyn" :: boundsCode bounds
  match bounds, isOpen with
  | [bound], false => ⟨.bound bound, code⟩
  | _, _ => ⟨.other, code⟩

/-- Parameters put behind the last word of a path. -/
def withParams (p : Path) (params : Code) : Path :=
  let last := p.segments.getLast?.map fun s => ⟨s.word, some params⟩
  { p with segments := p.segments.dropLast ++ last.toList }

/-- The last word of the path is applied to nothing. -/
def endsBare (p : Path) : Bool := p.segments.getLast?.all fun s => (s.args.getD []).isEmpty

mutual

def readSegment : Nat → Reader Segment
  | 0 => failure
  | fuel + 1 => do
    let .word w ← take | failure
    if ["super", "self", "crate", "try"].contains w then return ⟨w, none⟩
    if isKeyword w && w ≠ "Self" then failure
    if startsArgs (← get) then
      let _ ← takes "::"
      expect "<"
      return ⟨w, some (argsCode (← readArgs fuel))⟩
    else return ⟨w, none⟩

def readSegments : Nat → Reader (List Segment)
  | 0 => failure
  | fuel + 1 => do
    let first ← readSegment fuel
    if (← sees "::") && !startsParams (← get) then
      expect "::"
      return first :: (← readSegments fuel)
    else return [first]

def readPath : Nat → Reader Path
  | 0 => failure
  | fuel + 1 => do
    let leading ← takes "::"
    return ⟨leading, ← readSegments fuel⟩

/-- Arguments up to their closing bracket. -/
def readArgs : Nat → Reader (List Arg)
  | 0 => failure
  | fuel + 1 => do
    if ← takes ">" then return []
    let arg ← readArg fuel
    if ← takes "," then return arg :: (← readArgs fuel)
    expect ">"
    return [arg]

def readArg : Nat → Reader Arg
  | 0 => failure
  | fuel + 1 => do
    let ls ← get
    if ls.head?.any isLifetime && !stands "+" (ls.drop 1) then
      return ⟨true, ← takeIf isLifetime⟩
    if let some constant ← readConstant? then return ⟨false, constant⟩
    let type ← readType true fuel
    match type.form with
    | .name segment =>
      if ← takes "=" then
        let value ← readValue fuel
        return ⟨false, segment.code ++ .symbol "=" :: value⟩
      else if ← takes ":" then
        let bounds ← readNameBounds fuel
        let code := if bounds.isEmpty then [] else .symbol ":" :: boundsCode bounds
        return ⟨false, segment.code ++ code⟩
      else return ⟨false, type.code⟩
    | _ => return ⟨false, type.code⟩

/-- What a name is set to. -/
def readValue : Nat → Reader Code
  | 0 => failure
  | fuel + 1 => do
    if let some constant ← readConstant? then return constant
    return (← readType true fuel).code

/-- The bounds of a name up to the next argument. -/
def readNameBounds : Nat → Reader (List Bound)
  | 0 => failure
  | fuel + 1 => do
    if (← sees ",") || (← sees ">") then return []
    let bound ← readBound fuel
    if ← takes "+" then return bound :: (← readNameBounds fuel) else return [bound]

def readBound : Nat → Reader Bound
  | 0 => failure
  | fuel + 1 => do
    if (← get).head?.any isLifetime then return ⟨false, ← takeIf isLifetime⟩
    if ← sees "use" then return ⟨false, ← readNames "use" isCaptured⟩
    if ← takes "(" then
      let bound ← readTrait fuel
      expect ")"
      return ⟨true, parens bound⟩
    return ⟨true, ← readTrait fuel⟩

/-- A trait, which is either behind a binder or behind a mark. -/
def readTrait : Nat → Reader Code
  | 0 => failure
  | fuel + 1 => do
    let binder ← readBinder
    let mark ← if binder.isEmpty then takes "?" else pure false
    let path ← readPath fuel
    let path ←
      if endsBare path && startsParams (← get) then
        pure (withParams path (← readParams fuel).1)
      else pure path
    return binder ++ (if mark then [.symbol "?"] else []) ++ path.code

/-- Bounds behind signs. A sign may stand behind the last one if `mayEnd`; the flag that
is given back says whether it does. -/
def readMoreBounds (mayEnd : Bool) : Nat → Reader (List Bound × Bool)
  | 0 => failure
  | fuel + 1 => do
    if !(← takes "+") then return ([], false)
    if !startsBound (← get) then
      if mayEnd then return ([], true) else failure
    let bound ← readBound fuel
    let (more, isOpen) ← readMoreBounds mayEnd fuel
    return (bound :: more, isOpen)

/-- Bounds, at least one of them a trait. -/
def readBounds (plus : Bool) : Nat → Reader (List Bound)
  | 0 => failure
  | fuel + 1 => do
    let first ← readBound fuel
    let bounds ← if plus then pure (first :: (← readMoreBounds true fuel).1) else pure [first]
    if bounds.any (·.isTrait) then return bounds else failure

/-- Types up to a closing parenthesis. -/
def readTypes : Nat → Reader (List Code)
  | 0 => failure
  | fuel + 1 => do
    if ← takes ")" then return []
    let type ← readType true fuel
    if ← takes "," then return type.code :: (← readTypes fuel)
    expect ")"
    return [type.code]

/-- The parameters behind a path, with a result; and whether the path may go on. -/
def readParams : Nat → Reader (Code × Bool)
  | 0 => failure
  | fuel + 1 => do
    let _ ← takes "::"
    expect "("
    let params ← readTypes fuel
    let (result, goesOn) ← readResult fuel
    return (parens (commas params) ++ result, goesOn)

/-- The result of a function, if it is said; and whether it is open to the left. -/
def readResult : Nat → Reader (Code × Bool)
  | 0 => failure
  | fuel + 1 => do
    if ← takes "->" then
      let type ← readType false fuel
      return (.symbol "->" :: type.code, type.form matches .parens)
    else return ([], true)

/-- Parameters of a type of functions, up to the closing parenthesis. -/
def readFunctionParams (isFirst : Bool) : Nat → Reader (List Code)
  | 0 => failure
  | fuel + 1 => do
    if ← takes ")" then return []
    let name ←
      if startsParamName isFirst (← get) then
        let name := (← take).text
        expect ":"
        pure [.symbol name, .symbol ":"]
      else pure []
    if ← takes "..." then
      let _ ← takes ","
      expect ")"
      return [name ++ [.symbol "..."]]
    let param := name ++ (← readType true fuel).code
    if ← takes "," then return param :: (← readFunctionParams false fuel)
    expect ")"
    return [param]

def readFunction : Nat → Reader Code
  | 0 => failure
  | fuel + 1 => do
    let mark ← takeIf (·.text = "unsafe")
    let convention ← readConvention
    expect "fn"
    expect "("
    let params ← readFunctionParams true fuel
    let (result, _) ← readResult fuel
    return mark ++ convention ++ .symbol "fn" :: parens (commas params) ++ result

/-- What stands before a path: a type, perhaps as a trait. -/
def readQualifier : Nat → Reader Code
  | 0 => failure
  | fuel + 1 => do
    let type ← readType true fuel
    let trait ←
      if ← takes "as" then pure (.symbol "as" :: (← readPath fuel).code) else pure []
    expect ">"
    return .symbol "<" :: type.code ++ trait ++ [.symbol ">"]

/-- A type that starts with a path, behind a binder. -/
def readPathType (plus : Bool) (binder : Code) : Nat → Reader Written
  | 0 => failure
  | fuel + 1 => do
    let qualifier ← if ← takes "<" then readQualifier fuel else pure []
    let path ← readPath fuel
    if !qualifier.isEmpty && !path.leading then failure
    let (path, hasParams) ← readBehind path fuel
    let code := qualifier ++ path.code
    if !qualifier.isEmpty then return ⟨.other, code⟩
    if (← sees "!") && !(← sees "!=") && path.segments.all (·.args.isNone) then
      expect "!"
      return ⟨.other, code ++ .symbol "!" :: (← takeGroup)⟩
    if !binder.isEmpty || (plus && (← sees "+")) then
      let (more, isOpen) ← if plus then readMoreBounds true fuel else pure ([], false)
      return boundsType (⟨true, binder ++ code⟩ :: more) isOpen
    match path.leading, path.segments with
    | false, [segment] => return ⟨if hasParams then .path else .name segment, code⟩
    | _, _ => return ⟨.path, code⟩

/-- The path with the parameters behind it, and whether there are any. Words may follow
them. -/
def readBehind (path : Path) : Nat → Reader (Path × Bool)
  | 0 => failure
  | fuel + 1 => do
    if !(endsBare path && startsParams (← get)) then return (path, false)
    let (params, goesOn) ← readParams fuel
    let path := withParams path params
    if goesOn && (← sees "::") && !startsParams (← get) then
      expect "::"
      return ({ path with segments := path.segments ++ (← readSegments fuel) }, true)
    else return (path, true)

/-- What an opening parenthesis starts. -/
def readParens (plus : Bool) : Nat → Reader Written
  | 0 => failure
  | fuel + 1 => do
    if ← takes ")" then return ⟨.other, parens []⟩
    if (← get).head?.any isLifetime then
      let bounds ← readBounds true fuel
      expect ")"
      return ⟨.parens, parens (.symbol "dyn" :: boundsCode bounds)⟩
    if ← sees "?" then
      let bound ← readTrait fuel
      expect ")"
      return ← readParensBounds ⟨true, parens bound⟩ fuel
    let first ← readType true fuel
    if ← takes "," then
      return ⟨.other, parens (commas (first.code :: (← readTypes fuel)))⟩
    expect ")"
    let alone := ⟨.parens, parens first.code⟩
    if !(plus && (← sees "+")) then return alone
    match first.form with
    | .name _ | .path => readParensBounds ⟨true, parens first.code⟩ fuel
    | .bound bound => readParensBounds ⟨true, parens bound.code⟩ fuel
    | _ => return alone

/-- Bounds that start with one in parentheses. -/
def readParensBounds (first : Bound) : Nat → Reader Written
  | 0 => failure
  | fuel + 1 => do
    let (more, isOpen) ← readMoreBounds false fuel
    return boundsType (first :: more) isOpen

/-- What an opening bracket starts: a slice, or an array. -/
def readSlice : Nat → Reader Written
  | 0 => failure
  | fuel + 1 => do
    let element ← readType true fuel
    if ← takes ";" then
      if ← sees "]" then failure
      let length ← takeEnclosed ']'
      return ⟨.other, .symbol "[" :: element.code ++ .symbol ";" :: length⟩
    expect "]"
    return ⟨.other, .symbol "[" :: element.code ++ [.symbol "]"]⟩

/-- A type; with `plus`, it may be several bounds. -/
def readType (plus : Bool) : Nat → Reader Written
  | 0 => failure
  | fuel + 1 => do
    let binder ← readBinder
    let ls ← get
    if startsFunction ls then return ⟨.other, binder ++ (← readFunction fuel)⟩
    if startsPath ls then return ← readPathType plus binder fuel
    if !binder.isEmpty then failure
    if stands "::" ls || stands "<" ls then return ← readPathType plus [] fuel
    if ← takes "(" then return ← readParens plus fuel
    if ← takes "[" then return ← readSlice fuel
    if ← takes "*" then
      let access := (← take).text
      if access ≠ "const" ∧ access ≠ "mut" then failure
      let target ← readType false fuel
      return ⟨.other, .symbol "*" :: .symbol access :: target.code⟩
    if ← takes "&" then
      let lifetime ← takeIf isLifetime
      let access ← takeIf (·.text = "mut")
      let target ← readType false fuel
      return ⟨.other, .symbol "&" :: lifetime ++ access ++ target.code⟩
    if ls.head?.any isLifetime then
      return ⟨.other, .symbol "dyn" :: boundsCode (← readBounds true fuel)⟩
    match (← take).text with
    | "dyn" => return ⟨.other, .symbol "dyn" :: boundsCode (← readBounds plus fuel)⟩
    | "impl" => return ⟨.other, .symbol "impl" :: boundsCode (← readBounds plus fuel)⟩
    | "!" => return ⟨.other, [.symbol "!"]⟩
    | "_" => return ⟨.other, [.symbol "_"]⟩
    | _ => failure

end

/-- The path that a text spells. -/
def ofText? (text : String) : Option Path := do
  let ls ← Lexeme.scan? text
  let (path, rest) ← (readPath (8 * ls.length + 8)).run ls
  if rest.isEmpty then some path else none

end StagedMapping.Generated.Path
