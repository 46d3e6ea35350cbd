import StagedMapping.Generated.Lexeme
import StagedMapping.Vocabulary.ReservedWord

/-! Identifiers of generated code. A reserved word becomes an identifier in raw form. Any
other name has to be written as one word that is not reserved; blanks and comments around it
are dropped. -/
namespace StagedMapping.Generated

/-- Words that are no identifiers as they are. -/
def isKeyword (w : String) : Bool :=
  ["_", "self", "Self"].contains w || (ReservedWord.isReserved w && w ≠ "gen")

/-- The identifier for a name. -/
def identifier? (name : String) : Option String :=
  if ReservedWord.isReserved name then
    if ReservedWord.canBeRaw name then some ("r#" ++ name) else none
  else
    match Lexeme.scan? name with
    | some [.word w] => if isKeyword w then none else some w
    | _ => none

end StagedMapping.Generated
