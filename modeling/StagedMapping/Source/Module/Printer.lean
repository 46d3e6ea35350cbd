import StagedMapping.Source.Expr.Printer
import StagedMapping.Source.Module

/-! The types and expressions of a class as texts, in the order in which they are written. -/
namespace StagedMapping.Source

/-- The text of something that may be absent. -/
def optionalText {α : Type} (text : α → String) (a : Option α) : List String := (a.map text).toList

mutual

def Statement.texts : Statement → List String
  | .letIn _ bindings => bindings.flatMap fun b =>
      optionalText TypeExpr.text b.type ++ optionalText Expr.text b.value
  | .assign _ _ value | .expr _ value => [value.text]
  | .branch _ condition body others otherwise =>
    condition.text :: blockTexts body ++ othersTexts others ++ otherwiseTexts otherwise
  | .loop _ condition body => condition.text :: blockTexts body
  | .ret _ value => optionalText Expr.text value
  | .pass _ => []

def blockTexts : List Statement → List String
  | [] => []
  | s :: rest => s.texts ++ blockTexts rest

def othersTexts : List (Expr × List Statement) → List String
  | [] => []
  | (condition, body) :: rest => condition.text :: blockTexts body ++ othersTexts rest

def otherwiseTexts : Option (List Statement) → List String
  | none => []
  | some body => blockTexts body

end

def Method.texts (m : Method) : List String :=
  (m.params.flatMap fun p => p.type.text :: optionalText Expr.text p.default) ++
    optionalText TypeExpr.text m.returns ++ blockTexts (m.body.getD [])

def Class.texts (c : Class) : List String :=
  (c.decorators.flatMap fun d => d.args.map (·.text)) ++ c.fields.map (·.type.text) ++
    c.methods.flatMap Method.texts

end StagedMapping.Source
