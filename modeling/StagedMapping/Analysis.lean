import StagedMapping.Inference
import StagedMapping.Mapping
import StagedMapping.Source.Reads

/-! Analysis of factory methods. The first parameter is the source, and the body ends with
the construction of the target. Before that, a local whose value reads the source becomes a
variable, and every other statement a residual, which runs before the variables are
evaluated. So a residual may read neither the source nor a variable; and what a variable
reads may neither be declared nor changed after it. Every problem of a body is noted, and a
factory is what a body without problems leaves (`Factory.ofMethod`). -/
namespace StagedMapping
open Source (Ident Statement Binding)

/-! ### The shape of a body -/

/-- One step of a body: a local, or a statement that declares none. -/
inductive Item where
  | bind (span : Span) (b : Binding)
  | other (s : Statement)
  deriving Repr

/-- The steps of a statement; `pass` has none. -/
def Item.ofStatement : Statement → List Item
  | .letIn span bindings => bindings.map (.bind span)
  | .pass _ => []
  | s => [.other s]

/-- The statement that is one step. -/
def Item.toStatement : Item → Statement
  | bind span b => .letIn span [b]
  | other s => s

/-- The name that a step declares. -/
def Item.declares? : Item → Option String
  | bind _ b => some b.name.text
  | other _ => none

/-- The construction in an expression, whatever parentheses are around it. -/
def construction? : Source.Expr → Option (Source.TypeExpr × List Source.Argument)
  | .paren _ inner => construction? inner
  | .construct _ type args => some (type, args)
  | _ => none

/-- The statements before a final construction, and the construction. -/
def splitFinal (body : List Statement) :
    Option (List Statement × Source.TypeExpr × List Source.Argument) :=
  match body.getLast? with
  | some (.ret _ (some value)) => (construction? value).map fun c => (body.dropLast, c)
  | _ => none

/-! ### Steps before the construction -/

/-- What an analysis does not change: the method, its source parameter, and the locals
that its body declares outside of blocks. -/
structure Frame where
  site : Site
  sourceParam : String
  locals : List String

/-- What is known of the steps so far. -/
structure Progress where
  types : TypeScope
  /-- Parameters, and locals whose declaration was passed. -/
  declared : List String
  /-- What variables read besides the source, with the variables that read it. -/
  staged : List (String × String)
  vars : List Variable
  residuals : List Statement
  residualLocals : List (String × TypeRef)

namespace Progress

/-- The name of a variable. -/
def isTainted (p : Progress) (name : String) : Bool := p.vars.any (·.name == name)

/-- A variable that read a name. -/
def reader? (p : Progress) (name : String) : Option String :=
  (p.staged.find? (·.1 == name)).map (·.2)

/-- A local whose declaration is still to come. -/
def isEarly (f : Frame) (p : Progress) (name : String) : Bool :=
  f.locals.contains name && !p.declared.contains name

/-- The first of some changed names that a variable read. -/
def changed? (p : Progress) (names : List Ident) : Option (FactoryFault × Span) :=
  names.findSome? fun n => (p.reader? n.text).map fun v => (.changedAfterRead n.text v, n.span)

/-- The first read of a local that is still to be declared. -/
def early? (f : Frame) (p : Progress) (reads : List Ident) : Option (FactoryFault × Span) :=
  (reads.find? fun r => p.isEarly f r.text).map fun r => (.readBeforeDeclaration r.text, r.span)

/-- What is wrong with a local. -/
def bindingFault? (f : Frame) (p : Progress) (b : Binding) : Option (FactoryFault × Span) :=
  let reads := Source.optionalReads b.value
  match reads.find? fun r => p.isTainted r.text with
  | some r => some (.readsVariable r.text f.sourceParam, r.span)
  | none => (early? f p reads).or (p.changed? [b.name])

/-- What is wrong with a statement that declares no local. -/
def statementFault? (f : Frame) (p : Progress) (s : Statement) : Option (FactoryFault × Span) :=
  match s.reads.find? fun r => r.text == f.sourceParam || p.isTainted r.text with
  | some r =>
    if r.text = f.sourceParam then some (.readsSource f.sourceParam, s.span)
    else some (.readsVariable r.text f.sourceParam, r.span)
  | none =>
    ((early? f p s.reads).or (p.changed? s.assigned)).or
      (s.controlFlow?.map fun (what, span) => (.controlFlow what, span))

/-- Takes up a local that does not depend on the source. -/
def addResidual (p : Progress) (span : Span) (b : Binding) (type : TypeRef) : Progress :=
  { p with
    residuals := p.residuals ++ [.letIn span [b]]
    residualLocals := p.residualLocals ++ [(b.name.text, type)] }

/-- Takes up a local without a fault. -/
def addBinding (f : Frame) (p : Progress) (span : Span) (b : Binding) : Progress :=
  let name := b.name.text
  let type := p.types.ofBinding b
  let reads := (Source.optionalReads b.value).map (·.text)
  let p := { p with types := p.types.bind name type, declared := p.declared ++ [name] }
  match b.value with
  | some value =>
    if reads.contains f.sourceParam then
      { p with
        staged := p.staged ++ (reads.filter (· ≠ f.sourceParam)).map fun n => (n, name)
        vars := p.vars ++ [⟨name, type, value, b.name.span⟩] }
    else p.addResidual span b type
  | none => p.addResidual span b type

/-- A step of a body; one with a fault is left out, and the fault noted. -/
def step (f : Frame) (p : Progress) : Item → Noted Diagnostic Progress
  | .bind span b =>
    match bindingFault? f p b with
    | some (fault, place) =>
      ⟨{ p with declared := p.declared ++ [b.name.text] }, [⟨fault, f.site, place⟩]⟩
    | none => pure (p.addBinding f span b)
  | .other s =>
    match statementFault? f p s with
    | some (fault, place) => ⟨p, [⟨fault, f.site, place⟩]⟩
    | none => pure { p with residuals := p.residuals ++ [s] }

end Progress

/-! ### The construction -/

/-- Adds the initializer of an argument: it has to name a property, and the first for a
property counts. -/
def addInitializer (target : Descriptor) (kept : List Initializer) (a : Source.Argument) :
    List Initializer :=
  match a.name?.bind fun n => target.property? n.text with
  | none => kept
  | some p => if kept.any (·.target.name == p.name) then kept else kept ++ [⟨p, a.value⟩]

def keptInitializers (target : Descriptor) (args : List Source.Argument) : List Initializer :=
  args.foldl (addInitializer target) []

/-- The reads that come again after the first read of their name. -/
def repeatedReads (seen : List String) : List Ident → List Ident
  | [] => []
  | r :: rest =>
    if seen.contains r.text then r :: repeatedReads seen rest
    else repeatedReads (r.text :: seen) rest

/-- A variable may be read only once in the construction. -/
def repeatedFaults (f : Frame) (p : Progress) (kept : List Initializer) : List Diagnostic :=
  let reads := kept.flatMap (·.value.reads)
  (repeatedReads [] (reads.filter fun r => p.isTainted r.text)).map fun r =>
    ⟨.readsVariable r.text f.sourceParam, f.site, r.span⟩

/-! ### Methods -/

/-- The source parameter of a factory. -/
def sourceParameter (source : Descriptor) (site : Site) (m : Method) :
    Except (List Diagnostic) Parameter :=
  let fault (span : Span) : Diagnostic := ⟨.firstParameter source.toRef.text, site, span⟩
  match m.parameters with
  | [] => .error [fault m.span]
  | p :: _ => if source.isTypeOf p.type then .ok p else .error [fault p.span]

/-- The statements of a body before the construction of the target, and its arguments. -/
def finalConstruction (c : Compilation) (target : Descriptor) (site : Site) (m : Method) :
    Except (List Diagnostic) (List Statement × List Source.Argument) :=
  let body := m.body.getD []
  match splitFinal body with
  | none => .error [⟨.noReturn, site, (body.getLast?.map (·.span)).getD m.span⟩]
  | some (before, type, args) =>
    let built := (c.resolve site.source target.typeParams type).value
    if target.isTypeOf built then .ok (before, args)
    else .error [⟨.wrongReturn built.text, site, type.span⟩]

/-- The factory that a method of the target describes, or everything that is wrong with it. -/
def Factory.ofMethod (c : Compilation) (source target : Descriptor) (declared : DeclaredAt)
    (m : Method) : Except (List Diagnostic) Factory := do
  let site : Site := ⟨target.key.name, m.name, declared.source⟩
  let param ← sourceParameter source site m
  let (before, args) ← finalConstruction c target site m
  let items := before.flatMap Item.ofStatement
  let frame : Frame := ⟨site, param.name, items.filterMap (·.declares?)⟩
  let types : TypeScope := ⟨c, declared.source, target.typeParams,
    (m.parameters.map fun p => (p.name, p.type)).reverse⟩
  let start : Progress := ⟨types, m.parameters.map (·.name), [], [], [], []⟩
  let done := items.foldlM (Progress.step frame) start
  let kept := keptInitializers target args
  match done.notes ++ repeatedFaults frame done.value kept with
  | [] =>
    return { method := m
             sourceParam := param.name
             parameters := m.parameters.tail
             vars := done.value.vars
             initializers := kept
             residuals := done.value.residuals
             residualLocals := done.value.residualLocals }
  | faults => .error faults

/-- The mapping between two types: every factory method with a body is analyzed, and one
with a fault is left out. -/
def Mapping.build (c : Compilation) (source target : Descriptor) (declared : DeclaredAt) :
    Noted Diagnostic Mapping :=
  let methods := target.methods.filter fun m =>
    m.name == Convention.factoryMethod && m.body.isSome
  let results := methods.map (Factory.ofMethod c source target declared)
  { value :=
      { source := source.toRef
        target := target.toRef
        declared
        properties := defaultProperties source target
        factories := results.filterMap (·.toOption) }
    notes := results.flatMap fun
      | .ok _ => []
      | .error faults => faults }

end StagedMapping
