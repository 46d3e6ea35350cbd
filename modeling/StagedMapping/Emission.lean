import StagedMapping.Generated.MapperItem
import StagedMapping.Generated.ModuleTree
import StagedMapping.Generated.Path.Reader

/-! Generated code for a pass: a structure for every declared class and a mapper for every
mapping without type arguments, in the module of its target. Classes and mappings are taken
in the order of their names, so the code does not depend on the order of the sources. -/
namespace StagedMapping
open Generated

/-- Where generated code is put and where it finds compiled types. -/
structure EmitOptions where
  /-- The module around all generated namespaces; there is none if it is empty. -/
  outerModule : String
  sourceRoot : String
  deriving DecidableEq, Repr

def EmitOptions.default : EmitOptions := ⟨Convention.generatedModule, Convention.sourceRoot⟩

/-- The order of namespaces, then of names. -/
def TypeKey.le (a b : TypeKey) : Bool := if a.ns = b.ns then a.name ≤ b.name else a.ns ≤ b.ns

namespace Emission

/-- Namespace by namespace, the classes of the sources. -/
def declaredTypes (c : Compilation) : List Descriptor :=
  ((c.types.map (·.2)).filter (·.declared.isSome)).mergeSort fun a b => a.key.le b.key

/-- The order of mappings: by target, then by source. -/
def unitLe (a b : MapUnit) : Bool :=
  if a.target.key = b.target.key then a.source.qualified ≤ b.source.qualified
  else a.target.key.le b.target.key

/-- Several mappings have the target of this one. -/
def isShared (units : List MapUnit) (u : MapUnit) : Bool :=
  units.countP (·.target.qualified == u.target.qualified) > 1

/-- Only mappings between types without arguments are emitted. -/
def isEmitted (u : MapUnit) : Bool := u.target.args.isEmpty && u.source.args.isEmpty

def placedClass (s : Surroundings) (d : Descriptor) : Except EmitError Placed := do
  return ⟨Name.segments d.key.ns, ← classItem s d⟩

def placedMapper (s : Surroundings) (units : List MapUnit) (u : MapUnit) :
    Except EmitError Placed := do
  return ⟨Name.segments u.target.ns, ← mapperItem s u (isShared units u)⟩

/-- Every item of the generated code, with the path to its module. -/
def placedItems (s : Surroundings) (units : List MapUnit) : Except EmitError (List Placed) := do
  let classes ← (declaredTypes s.compilation).mapM (placedClass s)
  let mappers ← ((units.mergeSort unitLe).filter isEmitted).mapM (placedMapper s units)
  return classes ++ mappers

/-- The tree of modules. -/
def moduleTree (s : Surroundings) (units : List MapUnit) :
    Except EmitError (ModuleTree × List Reference) := do
  let placed ← placedItems s units
  let levels := (placed.map (·.path.length)).foldl max 0
  return (← ModuleTree.ofPlaced [] levels placed, placed.flatMap (·.item.references))

/-- The source root can stand everywhere where references need it. -/
def rootFits (root : Path) (references : List Reference) : Bool :=
  references.all fun r =>
    r.home == .generated || (if r.ns = "" then root.canStartType else root.canImport)

/-- The generated code. -/
def code (c : Compilation) (units : List MapUnit) (options : EmitOptions) :
    Except EmitError Code := do
  let some root := Path.ofText? options.sourceRoot | throw (.sourceRoot options.sourceRoot)
  let (tree, references) ← moduleTree ⟨c, root⟩ units
  let inner := tree.code root
  let wrapped ←
    if options.outerModule = "" then pure inner
    else (identifier .generatedModule options.outerModule).map (ModuleTree.wrapped · inner)
  if rootFits root references then return wrapped else throw .unreadable

/-- The line at the start of generated files. -/
def header : String := "// @generated by mapforge. Do not edit.\n\n"

/-- The generated file, without layout. -/
def file (c : Compilation) (units : List MapUnit) (options : EmitOptions) :
    Except EmitError String :=
  (code c units options).map fun code => header ++ render code

end Emission
end StagedMapping
