/-! What every entry of a vocabulary carries besides its own facts: the version of the
mapping language that introduced it and how settled it is. -/
namespace StagedMapping

/-- A version of the mapping language. -/
structure Since where
  major : Nat
  minor : Nat
  deriving DecidableEq, Repr

def Since.text (s : Since) : String := toString s.major ++ "." ++ toString s.minor

/-- The first version. -/
def Since.first : Since := ⟨0, 1⟩

inductive Stability where
  | stable
  | draft
  | deprecated
  deriving DecidableEq, Repr

def Stability.label : Stability → String
  | .stable => "Stable"
  | .draft => "Draft"
  | .deprecated => "Deprecated"

/-- An entry found by a spelling: canonical spellings win over aliases. -/
def findSpelling {α : Type} (all : List α) (spelling : α → String) (aliases : α → List String)
    (s : String) : Option α :=
  (all.find? fun a => spelling a == s).or (all.find? fun a => (aliases a).contains s)

end StagedMapping
