import StagedMapping.Generated.TypeCode

/-! Items of generated modules: the structures of declared classes, and functions. -/
namespace StagedMapping.Generated

/-- An item of a module, with the references that its code makes. -/
structure Item where
  name : String
  references : List Reference
  code : Code
  deriving Repr

/-! ### Functions -/

/-- A function of a mapper. -/
structure Function where
  doc : Option String
  isPublic : Bool
  name : String
  generics : Code
  params : List (String × Code)
  result : Code
  bounds : Code
  body : Code
  deriving Repr

/-- The marks of comments nest, inside so many open ones. -/
def nests (depth : Nat) : List Char → Bool
  | '/' :: '*' :: rest => nests (depth + 1) rest
  | '*' :: '/' :: rest => depth > 0 && nests (depth - 1) rest
  | _ :: rest => nests depth rest
  | [] => depth = 0

/-- The text without spaces before the ends of its lines. -/
def trimmedLines : List Char → List Char
  | [] => []
  | c :: rest =>
    let rest := trimmedLines rest
    if c = ' ' ∧ rest.head? = some '\n' then rest else c :: rest

/-- Nothing is left to be removed. -/
theorem trimmedLines_idem (cs : List Char) : trimmedLines (trimmedLines cs) = trimmedLines cs := by
  induction cs with
  | nil => rfl
  | cons c rest ih =>
    simp only [trimmedLines]
    split
    · exact ih
    · simp [trimmedLines, *]

/-- A text about what follows. One that can be a comment has the layout of a comment. -/
def docCode (text : String) : Code :=
  let cs := text.toList
  let text := if nests 0 cs then String.ofList (trimmedLines cs) else text
  code "# [ doc =" ++ [.string text, .symbol "]"]

def Function.code (f : Function) : Code :=
  (f.doc.map docCode).getD [] ++ (if f.isPublic then [.symbol "pub"] else []) ++
    [.symbol "fn", .symbol f.name] ++ f.generics ++
    parens (commas (f.params.map fun (name, type) => .symbol name :: .symbol ":" :: type)) ++
    .symbol "->" :: f.result ++ f.bounds ++ braces f.body

/-! ### Classes -/

/-- The mark of a property that is not both read and written. -/
def accessCode (p : Property) : Code :=
  match p.readable, p.writable with
  | true, false => code "# [ reflect ( readonly ) ]"
  | false, true => code "# [ reflect ( writeonly ) ]"
  | _, _ => []

variable (s : Surroundings)

def fieldCode (depth : Nat) (generics : List String) (p : Property) : Except EmitError Code := do
  let name ← identifier .property p.name
  let type ← s.typeCode depth generics p.type
  return accessCode p ++ [.symbol "pub", .symbol name, .symbol ":"] ++ type

/-- The structure of a declared class. -/
def classItem (d : Descriptor) : Except EmitError Item := do
  let name ← identifier .cls d.key.name
  let params ← d.typeParams.mapM (identifier .typeParameter)
  let fields ← d.properties.mapM (fieldCode s (depth d.key.ns) d.typeParams)
  let generics := if params.isEmpty then [] else angles (params.map fun w => [.symbol w])
  return {
    name
    references := d.properties.flatMap fun p => s.references d.typeParams p.type
    code := code "# [ derive ( Debug , Clone , PartialEq , Default ," ++ runtime ["Reflect"] ++
      code ") ] # [ reflect ( namespace =" ++ [.string d.key.ns] ++ code ") ] pub struct" ++
      [.symbol name] ++ generics ++ braces (commas fields) }

end StagedMapping.Generated
