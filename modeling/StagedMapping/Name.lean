/-! Qualified names and the case of generated names. A type is named by a namespace,
whose segments are joined by `::` and which may be empty, and a short name. -/
namespace StagedMapping.Name

/-- Namespace and short name as one path. -/
def qualify (ns name : String) : String := if ns = "" then name else ns ++ "::" ++ name

/-- The characters before and after the last `::`, if there is one. -/
def splitLast : List Char → Option (List Char × List Char)
  | [] => none
  | c :: rest =>
    match splitLast rest, c, rest with
    | some (before, after), _, _ => some (c :: before, after)
    | none, ':', ':' :: after => some ([], after)
    | none, _, _ => none

/-- A path as namespace and short name. -/
def splitQualified (path : String) : String × String :=
  match splitLast path.toList with
  | some (ns, name) => (String.ofList ns, String.ofList name)
  | none => ("", path)

/-- The parts between the `::`s, with `current` the reversed start of the first one. -/
def splitFrom (current : List Char) : List Char → List (List Char)
  | [] => [current.reverse]
  | [c] => [(c :: current).reverse]
  | c :: d :: rest =>
    if c = ':' ∧ d = ':' then current.reverse :: splitFrom [] rest
    else splitFrom (c :: current) (d :: rest)

/-- The nonempty segments of a namespace. -/
def segments (ns : String) : List String :=
  ((splitFrom [] ns.toList).map String.ofList).filter (· ≠ "")

/-- Segments as one path. -/
def joinPath (path : List String) : String := String.intercalate "::" path

/-- The path of a module without its first segment. -/
def withoutRoot (modulePath : String) : String :=
  match splitFrom [] modulePath.toList with
  | _ :: second :: more => joinPath ((second :: more).map String.ofList)
  | _ => ""

/-- A capital starts a word after a small letter or a digit, and before a small letter
if it ends a run of capitals. -/
def startsWord (previous next : Option Char) : Bool :=
  match previous with
  | none => false
  | some p => p.isLower || p.isDigit || (p.isUpper && next.any Char.isLower)

def snakeFrom (previous : Option Char) : List Char → List Char
  | [] => []
  | c :: rest =>
    if c.isUpper then
      let tail := c.toLower :: snakeFrom (some c) rest
      if startsWord previous rest.head? then '_' :: tail else tail
    else c :: snakeFrom (some c) rest

/-- Words in small letters with underscores between them; only ASCII letters have case
here, and a run of capitals is one word. -/
def toSnake (name : String) : String := String.ofList (snakeFrom none name.toList)

end StagedMapping.Name
