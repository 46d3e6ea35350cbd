import StagedMapping.Text.Blank
import StagedMapping.Text.Search
import StagedMapping.TypeRef

/-! Reading type references from the texts of compiled types, as in `List[a::b::Tag]`. A
name without a path is a builtin type, a type parameter of its owner, or a type of its
owner's namespace, in this order. Every text is read: a bracket that is not closed ends with
the text, and what follows the reference is not looked at. -/
namespace StagedMapping.TypeRef

def isBreak (c : Char) : Bool := c = '[' || c = ']' || c = ','

/-- What a written name stands for. -/
def ofPath (owner : String) (params : List String) (path : String) : TypeRef :=
  if Text.hasPart "::".toList path.toList then ofQualified path
  else
    match BuiltinType.ofSpelling? path with
    | some b => builtin b
    | none => if params.contains path then ofName path else mk owner path []

/-- Something read, and the text after it, which is not longer. -/
structure Part (α : Type) (cs : List Char) where
  value : α
  rest : List Char
  le : rest.length ≤ cs.length

theorem dropName_length_le (cs : List Char) :
    (cs.dropWhile fun c => !isBreak c).length ≤ cs.length :=
  (List.dropWhile_sublist _).length_le

mutual

def readRef (owner : String) (params : List String) (cs : List Char) : Part TypeRef cs :=
  let name := Text.trim (String.ofList (cs.takeWhile fun c => !isBreak c))
  let base := ofPath owner params name
  have := dropName_length_le cs
  match h : cs.dropWhile fun c => !isBreak c with
  | '[' :: rest =>
    let args := readArgs owner params rest
    ⟨base.withArgs args.value, args.rest, by have := args.le; simp_all; omega⟩
  | rest => ⟨base, rest, by simp_all⟩
termination_by 2 * cs.length
decreasing_by all_goals simp_all; omega

/-- Arguments up to their closing bracket. -/
def readArgs (owner : String) (params : List String) (cs : List Char) : Part (List TypeRef) cs :=
  let first := readRef owner params cs
  have := first.le
  match h : first.rest with
  | ',' :: rest =>
    let more := readArgs owner params rest
    ⟨first.value :: more.value, more.rest, by have := more.le; simp_all; omega⟩
  | ']' :: rest => ⟨[first.value], rest, by simp_all; omega⟩
  | rest => ⟨[first.value], rest, by simp_all⟩
termination_by 2 * cs.length + 1
decreasing_by all_goals simp_all; try omega

end

/-- The reference a text starts with, for an owner with a namespace and type parameters. -/
def parse (owner : String) (params : List String) (text : String) : TypeRef :=
  (readRef owner params text.toList).value

end StagedMapping.TypeRef
