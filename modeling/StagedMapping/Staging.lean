import StagedMapping.Analysis
import StagedMapping.Lowering
import StagedMapping.Plan

/-! Plans of mappings. A factory becomes stages over flat records: what an initializer reads
is a field of the record of the stage before it, so the second and the last stage are closed.
In the first stage the names of parameters and captures are free, until arguments are bound.
A factory without parameters, variables and residuals has no plan of its own: the first such
factory becomes the default mapping, and later ones are not used. -/
namespace StagedMapping

/-- `base`, or the first of `base1`, `base2`, … that is not taken. -/
def freshName (base : String) (taken : List String) : String :=
  let numbered := (List.range taken.length).map fun i => base ++ toString (i + 1)
  ((base :: numbered).find? fun name => !taken.contains name).getD base

namespace Mapping
variable (m : Mapping)

/-- The default projection. -/
def defaultStage : Lambda :=
  let x := Convention.sourceParameter
  ⟨x, .init m.target.qualified
    (m.properties.map fun p => (p.target.name, .member (.param x) p.source.name))⟩

/-- The properties of the target, in order. -/
def targetProperties (c : Compilation) : List String :=
  match c.descriptor? m.target with
  | some d => d.properties.map (·.name)
  | none => m.properties.map (·.target.name)

/-- The binding of a property: its initializer, else the source property matched with it. -/
def propertyBinding? (explicit : List (String × Tree)) (fallback : String → Tree)
    (name : String) : Option (String × Tree) :=
  match Bindings.get? explicit name with
  | some value => some (name, value)
  | none =>
    (m.properties.find? (·.target.name == name)).map fun p => (name, fallback p.source.name)

/-- The construction of the target, property by property. -/
def construction (c : Compilation) (explicit : List (String × Tree)) (fallback : String → Tree) :
    Tree :=
  .init m.target.qualified ((m.targetProperties c).filterMap (m.propertyBinding? explicit fallback))

/-- The place of the lowering of a factory. -/
def lowering (c : Compilation) (f : Factory) : Lowering :=
  ⟨c, ⟨m.target.name, f.method.name, m.declared.source⟩, m.target.args.map (·.name)⟩

/-- Trees of initializers in which the names `visible` may be read. -/
def initializerTrees (l : Lowering) (visible : List String) (inits : List Initializer) :
    Noted Diagnostic (List (String × Tree)) :=
  inits.mapM fun i => do return (i.target.name, ← l.expr visible i.value)

/-- The default projection that a factory without parameters makes. -/
def degenerateStage (c : Compilation) (f : Factory) : Noted Diagnostic Lambda := do
  let x := Convention.sourceParameter
  let trees ← initializerTrees (m.lowering c f) [f.sourceParam] f.initializers
  let rename (name : String) : Option Tree := if name = f.sourceParam then some (.param x) else none
  let explicit := trees.map fun (name, t) => (name, t.substitute rename)
  return ⟨x, m.construction c explicit (.member (.param x))⟩

/-- The plans of parameters, the default of each lowered with those before it in scope. -/
def parameterPlans (l : Lowering) (before : List String) :
    List Parameter → Noted Diagnostic (List ParameterPlan)
  | [] => pure []
  | p :: rest => do
    let default ← l.optional before (p.default.bind (·.expr))
    return ⟨p.name, p.type.text, default⟩ :: (← parameterPlans l (before ++ [p.name]) rest)

/-- What the lowering of a factory yields. -/
structure Lowered where
  parameters : List ParameterPlan
  residuals : List Residual
  vars : List (String × Tree)
  properties : List (String × Tree)

def lower (c : Compilation) (f : Factory) : Noted Diagnostic Lowered := do
  let l := m.lowering c f
  let names := f.parameters.map (·.name)
  let visible := f.sourceParam :: names ++ f.residualLocals.map (·.1)
  let parameters ← parameterPlans l [] f.parameters
  let residuals ← l.block names f.residuals
  let vars ← f.vars.mapM fun v => do return (v.name, ← l.expr visible v.value)
  let properties ← initializerTrees l (visible ++ f.vars.map (·.name)) f.initializers
  return ⟨parameters, residuals, vars, properties⟩

/-- The residual locals that are read and not hidden by a parameter; of several of one name
the last counts. -/
def captures (f : Factory) (read : List String) : List (String × String) :=
  let hidden := f.sourceParam :: f.parameters.map (·.name)
  f.residualLocals.foldr (fun v kept =>
    if read.contains v.1 && !hidden.contains v.1 && !(kept.any (·.1 == v.1)) then
      (v.1, v.2.text) :: kept
    else kept) []

/-- A field of the record that a stage receives. -/
def stageField (name : String) : Tree := .member (.param Convention.stageParameter) name

/-- A tree with the names of fields read off the record of the stage before. -/
def overFields (fields : List (String × String)) (t : Tree) : Tree :=
  t.substitute fun name => if fields.any (·.1 == name) then some (stageField name) else none

/-- The fields of the first stage's record: the source, the parameters, the captures. -/
def paramsFields (f : Factory) (captured : List (String × String)) : List (String × String) :=
  let sourceType := match f.method.parameters with
    | p :: _ => p.type.text
    | [] => m.source.text
  (f.sourceParam, sourceType) :: (f.parameters.map fun p => (p.name, p.type.text)) ++ captured

/-- The first stage: the source under its name, everything else under its own. -/
def paramsStage (f : Factory) (typeName : String) (fields captured : List (String × String)) :
    Lambda :=
  let x := freshName Convention.sourceParameter (f.parameters.map (·.name) ++ captured.map (·.1))
  ⟨x, .init typeName (fields.map fun (name, _) =>
    (name, .param (if name = f.sourceParam then x else name)))⟩

/-- The second stage: the fields of the first, then the variables. -/
def varsStage (typeName : String) (fields : List (String × String))
    (vars : List (String × Tree)) : Lambda :=
  ⟨Convention.stageParameter, .init typeName
    ((fields.map fun (name, _) => (name, stageField name)) ++
      vars.map fun (name, t) => (name, overFields fields t))⟩

/-- The plan of a lowered factory. -/
def assemble (c : Compilation) (f : Factory) (t : Lowered) : FactoryPlan :=
  let read := (t.vars ++ t.properties).flatMap (·.2.parameters)
  let captured := captures f read
  let fields := m.paramsFields f captured
  let paramsShape : Shape := ⟨Convention.paramsRecord ++ "_" ++ f.digest, fields⟩
  let varsShape : Shape := ⟨Convention.varsRecord ++ "_" ++ f.digest,
    fields ++ f.vars.map fun v => (v.name, v.type.text)⟩
  let staged := !f.vars.isEmpty
  let lastFields := if staged then varsShape.fields else fields
  let explicit := t.properties.map fun (name, tree) => (name, overFields lastFields tree)
  { declaration := f.declaration
    digest := f.digest
    parameters := t.parameters
    residuals := t.residuals
    captures := captured
    paramsShape
    varsShape := if staged then some varsShape else none
    paramsStage := paramsStage f paramsShape.typeName fields captured
    varsStage := if staged then some (varsStage varsShape.typeName fields t.vars) else none
    finalStage := ⟨Convention.stageParameter,
      m.construction c explicit fun p => .member (stageField f.sourceParam) p⟩ }

/-- Plans of factories in order, with the default projection that one of them makes. A
factory with an inexpressible part is left out. -/
def planFactories (c : Compilation) (merged : Option Lambda) :
    List Factory → Noted Diagnostic (Option Lambda × List FactoryPlan)
  | [] => pure (merged, [])
  | f :: rest =>
    if f.isDegenerate then
      match merged with
      | some _ => planFactories c merged rest
      | none =>
        match m.degenerateStage c f with
        | ⟨stage, []⟩ => planFactories c (some stage) rest
        | ⟨_, faults⟩ => do
          let _ ← (⟨(), faults⟩ : Noted Diagnostic Unit)
          planFactories c none rest
    else
      match m.lower c f with
      | ⟨t, []⟩ => do
        let (stage, plans) ← planFactories c merged rest
        return (stage, m.assemble c f t :: plans)
      | ⟨_, faults⟩ => do
        let _ ← (⟨(), faults⟩ : Noted Diagnostic Unit)
        planFactories c merged rest

/-- The plan of a mapping. -/
def plan (c : Compilation) : Noted Diagnostic MapPlan := do
  let (merged, factories) ← m.planFactories c none m.factories
  return ⟨m.source.text, m.target.text, merged.getD m.defaultStage, factories⟩

end Mapping
end StagedMapping
