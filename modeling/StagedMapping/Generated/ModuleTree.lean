import StagedMapping.Generated.Item

/-! The tree of generated modules: one module per namespace, inside the module of the
namespace around it. `ModuleTree.ofPlaced` groups items by their paths; the modules inside a
module are in the order of their names. -/
namespace StagedMapping.Generated

/-- An import of everything in a namespace. -/
inductive Use where
  /-- Relative to the module, by the words of the path. -/
  | relative (words : List String)
  /-- Below the source root. -/
  | rooted (segments : List String)
  deriving DecidableEq, Repr

def Use.code (root : Path) : Use → Code
  | relative words => .symbol "use" :: joined words ++ Generated.code ":: * ;"
  | rooted segments => .symbol "use" :: root.code ++ absolute segments ++ Generated.code ":: * ;"

/-- A module without its name. -/
inductive ModuleTree where
  | node (uses : List Use) (items : List Item) (children : List (String × ModuleTree))
  deriving Repr

/-- An item below some module, with the rest of the path to its own module. -/
structure Placed where
  path : List String
  item : Item
  deriving Repr

namespace ModuleTree

/-! ### Grouping -/

/-- The items of the module itself. -/
def here (placed : List Placed) : List Item :=
  placed.filterMap fun p => if p.path.isEmpty then some p.item else none

/-- The names of the modules inside, in order. -/
def childNames (placed : List Placed) : List String :=
  (placed.filterMap (·.path.head?)).eraseDups.mergeSort (· ≤ ·)

/-- The items below the module of a name. -/
def inside (name : String) (placed : List Placed) : List Placed :=
  placed.filterMap fun p =>
    match p.path with
    | first :: rest => if first = name then some ⟨rest, p.item⟩ else none
    | [] => none

/-- The import of a namespace into the module at a path. -/
def useOf (path : List String) (r : Reference) : Except EmitError Use := do
  let segments ← (Name.segments r.ns).mapM (identifier .namespaceSegment)
  match r.home with
  | .generated => return .relative (wordsUp path.length ++ segments)
  | .compiled => return .rooted segments

/-- The module at a path, with at most `levels` levels of modules inside. -/
def ofPlaced (path : List String) : Nat → List Placed → Except EmitError ModuleTree
  | 0, placed => do
    let items := here placed
    let references := items.flatMap (·.references)
    return node (← (importedSpaces (Name.joinPath path) references).mapM (useOf path)) items []
  | levels + 1, placed => do
    let items := here placed
    let references := items.flatMap (·.references)
    let uses ← (importedSpaces (Name.joinPath path) references).mapM (useOf path)
    let children ← (childNames placed).mapM fun name => do
      let word ← identifier .namespaceSegment name
      return (word, ← ofPlaced (path ++ [name]) levels (inside name placed))
    return node uses items children

/-! ### Code -/

/-- A module around code. -/
def wrapped (name : String) (inner : Code) : Code :=
  [.symbol "pub", .symbol "mod", .symbol name] ++ braces inner

mutual

def code (root : Path) : ModuleTree → Code
  | node uses items children =>
    uses.flatMap (·.code root) ++ items.flatMap (·.code) ++ childrenCode root children

def childrenCode (root : Path) : List (String × ModuleTree) → Code
  | [] => []
  | (name, child) :: rest => wrapped name (code root child) ++ childrenCode root rest

end

end ModuleTree
end StagedMapping.Generated
