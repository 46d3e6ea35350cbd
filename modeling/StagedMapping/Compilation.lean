import StagedMapping.Descriptor

/-! What a pass over several sources knows by name. `Inventory` lists the declared and the
compiled types; `Inventory.resolve` finds what a written type refers to in a source; a
`Compilation` adds a descriptor for every type. Of several declarations of one name the
first counts, and a declared type hides a compiled one. -/
namespace StagedMapping

/-- A source that takes part in a pass. -/
structure SourceFile where
  file : String
  text : String
  content : Source.Module
  deriving Repr

/-- A problem in one of the sources of a pass. -/
structure SourceProblem where
  source : Nat
  problem : Problem
  deriving Repr

/-- What a source sees by short names. -/
structure Context where
  ns : String
  /-- Bound names, and the qualified names they stand for. -/
  imports : List (String × String)
  /-- Namespaces that are imported as a whole. -/
  globs : List String
  deriving DecidableEq, Repr

def Source.Module.context (m : Source.Module) : Context where
  ns := m.ns
  imports := m.declarations.filterMap Source.Module.importedType?
  globs := m.declarations.filterMap Source.Module.importedSpace?

/-- Where a type comes from. -/
inductive Origin where
  | declared (source : Nat) (ns : String) (c : Source.Class)
  | compiled (c : CompiledType)
  deriving Repr

namespace Origin

def typeParams : Origin → List String
  | declared _ _ c => c.typeParams
  | compiled c => c.typeParams

end Origin

structure Inventory where
  files : List SourceFile
  /-- Each type under its qualified name. -/
  origins : List (String × Origin)
  deriving Repr

namespace Inventory

/-! ### The types of a pass -/

/-- The classes of the sources, in order, each under its qualified name. -/
def declarations (files : List SourceFile) : List (String × Nat × String × Source.Class) :=
  files.zipIdx.flatMap fun (f, source) =>
    f.content.classes.map fun c => (Name.qualify f.content.ns c.name, source, f.content.ns, c)

/-- Adds a declared type, if no type before it has its name. -/
def addDeclared (origins : List (String × Origin)) (name : String) (source : Nat) (ns : String)
    (c : Source.Class) : Noted SourceProblem (List (String × Origin)) :=
  if (Bindings.get? origins name).isSome then
    ⟨origins, [⟨source, .repeatedType name, c.span⟩]⟩
  else pure (origins ++ [(name, .declared source ns c)])

/-- Adds a compiled type, if no type before it has its name. -/
def addCompiled (origins : List (String × Origin)) (c : CompiledType) : List (String × Origin) :=
  if (Bindings.get? origins c.qualified).isSome then origins
  else origins ++ [(c.qualified, .compiled c)]

def ofSources (files : List SourceFile) (compiled : List CompiledType) :
    Noted SourceProblem Inventory := do
  let declared ← (declarations files).foldlM
    (fun origins (name, source, ns, c) => addDeclared origins name source ns c) []
  return ⟨files, compiled.foldl addCompiled declared⟩

variable (inv : Inventory)

def origin? (name : String) : Option Origin := Bindings.get? inv.origins name

def contains (name : String) : Bool := (inv.origin? name).isSome

def context? (source : Nat) : Option Context := inv.files[source]?.map (·.content.context)

/-! ### Resolution of written types -/

/-- A type of the pass, or the note that there is none of its name. -/
def known (name : String) (span : Span) : Noted Problem (Option TypeRef) :=
  if inv.contains name then pure (some (.ofQualified name))
  else ⟨none, [⟨.unknownType name, span⟩]⟩

/-- What a short name refers to in a context: a type of its namespace, else an import, else
the one type of that name among the namespaces imported as a whole. -/
def lookupIn (context : Context) (name : String) (span : Span) : Noted Problem (Option TypeRef) :=
  let localName := Name.qualify context.ns name
  if inv.contains localName then pure (some (.ofQualified localName))
  else
    match Bindings.get? context.imports name with
    | some target => inv.known target span
    | none =>
      match (context.globs.map (Name.qualify · name)).filter inv.contains with
      | [] => ⟨none, [⟨.unknownType name, span⟩]⟩
      | [one] => pure (some (.ofQualified one))
      | several => ⟨none, [⟨.ambiguousType name several, span⟩]⟩

/-- What a path refers to in a source: as a qualified name if it has several segments, else
a type parameter, a builtin type, or what the context of the source says. -/
def lookup (source : Nat) (generics : List String) (path : List String) (span : Span) :
    Noted Problem (Option TypeRef) :=
  match path with
  | [] => pure none
  | [name] =>
    if generics.contains name then pure (some (.ofName name))
    else
      match BuiltinType.ofSpelling? name with
      | some b => pure (some (.builtin b))
      | none =>
        match inv.context? source with
        | none => pure none
        | some context => inv.lookupIn context name span
  | _ => inv.known (Name.joinPath path) span

/-- The number of arguments that a type takes, if that is known. -/
def arity? (generics : List String) (t : TypeRef) : Option Nat :=
  match t.builtin? with
  | some b => some b.arity
  | none =>
    if t.ns = "" ∧ generics.contains t.name then some 0
    else (inv.origin? t.qualified).map (·.typeParams.length)

/-- A type applied to arguments, noting a wrong number of them. -/
def apply (generics : List String) (t : TypeRef) (args : List TypeRef) (span : Span) :
    Noted Problem TypeRef :=
  match inv.arity? generics t with
  | none => pure (t.withArgs args)
  | some n =>
    if n = args.length then pure (t.withArgs args)
    else ⟨t.withArgs args, [⟨.typeArgumentCount t.qualified n args.length, span⟩]⟩

theorem apply_value (generics : List String) (t : TypeRef) (args : List TypeRef) (span : Span) :
    (inv.apply generics t args span).value = t.withArgs args := by
  unfold apply
  split
  · rfl
  · split <;> rfl

/-- A written path with arguments. -/
def resolvePath (source : Nat) (generics : List String) (path : List String)
    (args : List TypeRef) (span : Span) : Noted Problem TypeRef := do
  match ← inv.lookup source generics path span with
  | none => return .mk "" (Name.joinPath path) args
  | some t => inv.apply generics t args span

mutual

/-- What a written type refers to in a source, with type parameters in scope. There always
is a result; what is wrong with it is noted, and the arguments come first. -/
def resolve (source : Nat) (generics : List String) : Source.TypeExpr → Noted Problem TypeRef
  | .named span path => inv.resolvePath source generics path [] span
  | .applied span path args => do
    inv.resolvePath source generics path (← resolveAll source generics args) span

def resolveAll (source : Nat) (generics : List String) :
    List Source.TypeExpr → Noted Problem (List TypeRef)
  | [] => pure []
  | t :: rest => do
    let first ← resolve source generics t
    return first :: (← resolveAll source generics rest)

end

/-- The descriptor of a type. -/
def describe : Origin → Noted SourceProblem Descriptor
  | .compiled c => pure (.ofCompiled c)
  | .declared source ns c =>
    (Descriptor.ofClass (inv.resolve source c.typeParams) source ns c).mapNotes (⟨source, ·⟩)

/-- The types in the order of their names. -/
def sorted : List (String × Origin) := inv.origins.mergeSort fun a b => a.1 ≤ b.1

end Inventory

structure Compilation extends Inventory where
  /-- Descriptors in the order of qualified names. -/
  types : List (String × Descriptor)
  problems : List SourceProblem
  deriving Repr

namespace Compilation

def ofSources (files : List SourceFile) (compiled : List CompiledType) : Compilation :=
  let inv := Inventory.ofSources files compiled
  let types := inv.value.sorted.mapM fun (name, origin) => do
    return (name, ← inv.value.describe origin)
  { inv.value with types := types.value, problems := inv.notes ++ types.notes }

variable (c : Compilation)

def descriptorNamed? (name : String) : Option Descriptor := Bindings.get? c.types name

/-- What is known of the type a reference names. -/
def descriptor? (t : TypeRef) : Option Descriptor := c.descriptorNamed? t.qualified

/-- The type of a property of `owner`, with the owner's arguments in it. -/
def propertyType? (owner : TypeRef) (property : String) : Option TypeRef := do
  let d ← c.descriptor? owner
  let p ← d.property? property
  return p.type.substitute d.typeParams owner.args

end Compilation
end StagedMapping
