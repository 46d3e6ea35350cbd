import StagedMapping.Compilation

/-! Requests for maps: declared classes with a decorator that names a source type. A
decorator that names no type of the pass is noted, and a source named twice on one class
counts once. -/
namespace StagedMapping

structure MapRequest where
  source : Descriptor
  target : Descriptor
  /-- Where the target is declared. -/
  declared : DeclaredAt
  /-- Where the decorator stands. -/
  span : Span
  deriving Repr

namespace MapRequest

/-- The same pair of types. -/
def samePair (r s : MapRequest) : Bool :=
  r.target.sameType s.target && r.source.sameType s.source

end MapRequest

namespace Compilation
variable (c : Compilation)

/-- The source type that a decorator names. -/
def decoratedSource (source : Nat) (d : Source.Decorator) :
    Noted SourceProblem (Option Descriptor) :=
  match d.args with
  | [arg] => do
    let ref ← (c.resolve source [] arg).mapNotes (⟨source, ·⟩)
    return c.descriptor? ref
  | _ => ⟨none, [⟨source, .decoratorArguments Convention.mapDecorator, d.span⟩]⟩

/-- Adds the request of a decorator to those before it. -/
def addRequest (source : Nat) (target : Descriptor) (declared : DeclaredAt)
    (requests : List MapRequest) (d : Source.Decorator) :
    Noted SourceProblem (List MapRequest) := do
  if d.name ≠ Convention.mapDecorator then return requests
  match ← c.decoratedSource source d with
  | none => return requests
  | some found =>
    let request : MapRequest := ⟨found, target, declared, d.span⟩
    return if requests.any (·.samePair request) then requests else requests ++ [request]

/-- Adds the requests of a class, unless another class of its name was declared in a source
before. -/
def addClass (requests : List MapRequest)
    (entry : String × Nat × String × Source.Class) : Noted SourceProblem (List MapRequest) :=
  let (name, source, _, cls) := entry
  match c.descriptorNamed? name with
  | none => pure requests
  | some target =>
    match target.declared with
    | none => pure requests
    | some declared =>
      if declared.source = source then
        cls.decorators.foldlM (c.addRequest source target declared) requests
      else pure requests

/-- Every request of the pass, in the order of the sources and of the classes in them. -/
def discover : Noted SourceProblem (List MapRequest) :=
  (Inventory.declarations c.files).foldlM c.addClass []

end Compilation
end StagedMapping
