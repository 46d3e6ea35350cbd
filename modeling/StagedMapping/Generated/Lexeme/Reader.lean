import StagedMapping.Generated.Lexeme
import StagedMapping.Generated.Token

/-! Readers of lexemes. A reader takes lexemes from the front of a list, or fails; what it
should take next is spelled out, as in `expect "::"`, where several signs have to follow each
other directly. `takeGroup` takes whatever stands between two brackets. -/
namespace StagedMapping.Generated

/-- Takes lexemes from the front, or fails. -/
abbrev Reader := StateT (List Lexeme) Option

/-! ### Looking ahead -/

/-- The signs stand in front, each directly followed by the next one. -/
def hasSigns : List Char → List Lexeme → Bool
  | [], _ => true
  | [c], l :: _ => l == .sign c || l == .joint c
  | c :: more, l :: rest => l == .joint c && hasSigns more rest
  | _, [] => false

/-- What is spelled, signs or a single other lexeme, stands in front. -/
def stands (s : String) (ls : List Lexeme) : Bool :=
  if s.toList.all Lexeme.isSign then hasSigns s.toList ls else ls.head?.any (·.text = s)

namespace Reader

def sees (s : String) : Reader Bool := return stands s (← get)

/-! ### Taking -/

/-- Takes what is spelled, if it stands in front. -/
def takes (s : String) : Reader Bool := do
  let ls ← get
  if stands s ls then
    set (ls.drop (if s.toList.all Lexeme.isSign then s.length else 1))
    return true
  else return false

def expect (s : String) : Reader Unit := do
  if ← takes s then return else failure

/-- Takes the lexeme in front. -/
def take : Reader Lexeme := do
  match ← get with
  | l :: rest => set rest; return l
  | [] => failure

/-- Takes the lexeme in front if it is of a kind; as code. -/
def takeIf (p : Lexeme → Bool) : Reader Code := do
  if (← get).head?.any p then return [.symbol (← take).text] else return []

/-! ### Brackets -/

def closing? (c : Char) : Option Char :=
  match c with
  | '(' => some ')'
  | '[' => some ']'
  | '\x7b' => some '\x7d'
  | _ => none

/-- The lexemes before the last one of some closing brackets, and those after it. -/
def enclosed? (closers : List Char) : List Lexeme → Option (List Lexeme × List Lexeme)
  | [] => none
  | l :: rest =>
    let more := fun closers => (enclosed? closers rest).map fun (ls, rest) => (l :: ls, rest)
    match l, closers with
    | .bracket c, last :: outer =>
      match closing? c with
      | some closer => more (closer :: closers)
      | none => if c ≠ last then none else if outer.isEmpty then some ([], rest) else more outer
    | _, _ => more closers

/-- A list ends here. -/
def endsList (s : String) : Bool := [")", "]", "\x7d", ">"].contains s

/-- Code without the commas that end lists. -/
def withoutLastCommas : Code → Code
  | [] => []
  | t :: rest =>
    let rest := withoutLastCommas rest
    match t, rest with
    | .symbol ",", .symbol s :: _ => if endsList s then rest else t :: rest
    | _, _ => t :: rest

/-- Takes what stands before a closing bracket, and the bracket; the code has the bracket at
its end. -/
def takeEnclosed (closer : Char) : Reader Code := do
  let (ls, rest) ← enclosed? [closer] (← get)
  set rest
  return withoutLastCommas (ls.map (.symbol ·.text) ++ [.symbol (.singleton closer)])

/-- Takes a bracket and all that it encloses. -/
def takeGroup : Reader Code := do
  match ← take with
  | .bracket c =>
    let closer ← closing? c
    return .symbol (.singleton c) :: (← takeEnclosed closer)
  | _ => failure

end Reader
end StagedMapping.Generated
