import StagedMapping.Generated.Token

/-! Paths of generated code, as in `crate::domain`. A word of a path may be applied to types;
such a path can name a type but not an import. -/
namespace StagedMapping.Generated

/-- A word of a path. What it is applied to is kept as code, which is empty when there is
nothing between the brackets. -/
structure Segment where
  word : String
  args : Option Code
  deriving Repr

/-- A path; `leading` when it starts with a separator. -/
structure Path where
  leading : Bool
  segments : List Segment
  deriving Repr

/-! ### Code -/

def Segment.code (s : Segment) : Code := .symbol s.word :: s.args.getD []

/-- Words as a path. -/
def joined (words : List String) : Code :=
  match words with
  | [] => []
  | w :: rest => .symbol w :: absolute rest

namespace Path

/-- What stands after a first segment. -/
def tailCode (segments : List Segment) : Code := segments.flatMap fun s => .symbol "::" :: s.code

def code (p : Path) : Code :=
  match p.leading, p.segments with
  | false, s :: rest => s.code ++ tailCode rest
  | _, segments => tailCode segments

/-! ### Where a path can stand -/

/-- An import may start with the path. -/
def canImport (p : Path) : Bool := p.segments.all fun s => s.args.isNone && s.word ≠ "Self"

/-- A type may start with the path. -/
def canStartType (p : Path) : Bool := p.leading || p.segments.head?.all (·.word ≠ "try")

end Path
end StagedMapping.Generated
