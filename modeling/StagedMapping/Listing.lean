import StagedMapping.Value

/-! Listings: labelled trees as text, on one line (`Listing.line`) or with a line for every
entry (`Listing.block`). -/
namespace StagedMapping

inductive Listing where
  | leaf (text : String)
  /-- A name with entries in parentheses; the name may be empty. -/
  | tuple (name : String) (items : List Listing)
  | fields (name : String) (entries : List (String × Listing))
  | list (items : List Listing)
  deriving Repr

namespace Listing

def quoted (s : String) : Listing := leaf (Text.quote s)

/-- Something that may be absent. -/
def optional {α : Type} (f : α → Listing) : Option α → Listing
  | none => leaf "None"
  | some a => tuple "Some" [f a]

/-! ### On one line -/

mutual

def line : Listing → String
  | leaf text => text
  | tuple name items => name ++ "(" ++ String.intercalate ", " (lines items) ++ ")"
  | fields name entries => Value.braces name (entryLines entries)
  | list items => "[" ++ String.intercalate ", " (lines items) ++ "]"

def lines : List Listing → List String
  | [] => []
  | item :: rest => line item :: lines rest

def entryLines : List (String × Listing) → List String
  | [] => []
  | (name, item) :: rest => (name ++ ": " ++ line item) :: entryLines rest

end

/-! ### On several lines -/

/-- The start of a line at a level of nesting. -/
def margin (level : Nat) : String := String.ofList (List.replicate (4 * level) ' ')

/-- Entries between brackets, each on lines of its own. -/
def enclosed (level : Nat) (opening : String) (entries : List String) (closing : String) : String :=
  opening ++ "\n" ++ String.join (entries.map fun e => margin (level + 1) ++ e ++ ",\n") ++
    margin level ++ closing

mutual

def block (level : Nat) : Listing → String
  | leaf text => text
  | tuple name items => enclosed level (name ++ "(") (blocks (level + 1) items) ")"
  | fields name entries =>
    enclosed level (name ++ " \x7b") (entryBlocks (level + 1) entries) "\x7d"
  | list [] => "[]"
  | list (item :: rest) =>
    enclosed level "[" (block (level + 1) item :: blocks (level + 1) rest) "]"

def blocks (level : Nat) : List Listing → List String
  | [] => []
  | item :: rest => block level item :: blocks level rest

def entryBlocks (level : Nat) : List (String × Listing) → List String
  | [] => []
  | (name, item) :: rest => (name ++ ": " ++ block level item) :: entryBlocks level rest

end

end Listing
end StagedMapping
