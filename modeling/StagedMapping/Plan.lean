import StagedMapping.Plan.Error
import StagedMapping.Residual

/-! Mapping plans. A `MapPlan` holds the default projection of a source to a target and a
`FactoryPlan` for each custom factory. A factory is applied in stages: the first makes a
record of the source, the arguments and the captured locals; the second, if there is one,
adds the locals that depend on the source; the last builds the target. `FactoryPlan.bind`
puts the arguments into the first stage, after which the stages are functions of the source
alone. -/
namespace StagedMapping

/-- The record a stage produces, with the types of its fields. -/
structure Shape where
  typeName : String
  fields : List (String × String)
  deriving DecidableEq, Repr

def Shape.text (s : Shape) : String :=
  Value.braces s.typeName (s.fields.map fun f => f.1 ++ ": " ++ f.2)

/-- A parameter after the source; its default may read the parameters before it. -/
structure ParameterPlan where
  name : String
  type : String
  default : Option Tree
  deriving Repr

structure FactoryPlan where
  declaration : String
  digest : String
  parameters : List ParameterPlan
  residuals : List Residual
  /-- Residual locals that the stages read, with their types. -/
  captures : List (String × String)
  paramsShape : Shape
  varsShape : Option Shape
  paramsStage : Lambda
  varsStage : Option Lambda
  finalStage : Lambda
  deriving Repr

structure MapPlan where
  source : String
  target : String
  defaultStage : Lambda
  factories : List FactoryPlan
  deriving Repr

/-- Arguments by position; one left out takes the default of its parameter. -/
abbrev Args := List (Option Value)

/-- The value passed at a position, if there is one. -/
def Args.get? (args : Args) (i : Nat) : Option Value := args[i]?.join

/-- A failed evaluation as a failure of a mapper. -/
def Eval.lift {α : Type} (e : Eval α) : Except MapError α := e.mapError .eval

theorem Eval.lift_eq_ok {α : Type} {x : Eval α} {a : α} : x.lift = .ok a ↔ x = .ok a := by
  cases x with
  | ok b => exact ⟨fun h => by cases h; rfl, fun h => by cases h; rfl⟩
  | error e => exact ⟨nofun, nofun⟩

theorem Eval.lift_eq_error {α : Type} {x : Eval α} {e : EvalError} :
    x.lift = .error (.eval e) ↔ x = .error e := by
  cases x with
  | ok a => exact ⟨nofun, nofun⟩
  | error d => exact ⟨fun h => by cases h; rfl, fun h => by cases h; rfl⟩

namespace FactoryPlan

/-- The value of a parameter: what is passed, else its default. -/
def argument (f : FactoryPlan) (scope : Scope) (p : ParameterPlan) (passed : Option Value) :
    Except MapError Value :=
  match passed, p.default with
  | some v, _ => .ok v
  | none, some t => (t.eval scope).lift
  | none, none => .error (.missingArgument p.name f.declaration)

/-- Binds parameters in order, each in the scope of those before it. -/
def bindParameters (f : FactoryPlan) (scope : Scope) :
    List ParameterPlan → Args → Except MapError Scope
  | [], _ => .ok scope
  | p :: rest, args => do
    let v ← f.argument scope p args.head?.join
    bindParameters f (Bindings.set scope p.name (v.coerce p.type)) rest args.tail

/-- The names that a scope may give a value in the first stage. -/
def isBindable (f : FactoryPlan) (name : String) : Bool :=
  name ≠ f.paramsStage.param &&
    (f.parameters.any (·.name == name) || f.captures.any (·.1 == name))

/-- The first stage, with the values of parameters and captures in it. -/
def boundParams (f : FactoryPlan) (scope : Scope) : Lambda :=
  { f.paramsStage with
    body := f.paramsStage.body.substitute fun name =>
      if f.isBindable name then (Bindings.get? scope name).map .const else none }

/-- The scope that the arguments and the residual statements leave. -/
def boundScope (f : FactoryPlan) (args : Args) : Except MapError Scope := do
  if f.parameters.length < args.length then
    throw (.tooManyArguments f.declaration f.parameters.length args.length)
  let scope ← f.bindParameters [] f.parameters args
  (Residual.execAll scope f.residuals).toExcept.lift

/-- The stages as functions of the source. -/
def bind (f : FactoryPlan) (args : Args) : Except MapError (List Lambda) := do
  let scope ← f.boundScope args
  return f.boundParams scope :: f.varsStage.toList ++ [f.finalStage]

end FactoryPlan

namespace MapPlan

/-- The factory with a digest, the first if there are several. -/
def factory (m : MapPlan) (digest : String) : Except MapError FactoryPlan :=
  match m.factories.find? (·.digest == digest) with
  | some f => .ok f
  | none => .error (.unknownFactory digest)

/-- The bound stages of the factory with a digest. -/
def bind (m : MapPlan) (digest : String) (args : Args) : Except MapError (List Lambda) := do
  (← m.factory digest).bind args

end MapPlan
end StagedMapping
