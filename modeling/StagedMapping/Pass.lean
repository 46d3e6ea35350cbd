import StagedMapping.Discovery
import StagedMapping.Emission
import StagedMapping.Source.Module.Parser
import StagedMapping.Staging

/-! One pass over several sources (`compile`). Problems are of two kinds: those of the
sources, which leave the pass without code, and diagnostics of factories, which drop only
the factory they are about. A source that cannot be read ends the pass before anything else. -/
namespace StagedMapping

/-- A source under the name of its file. -/
structure Input where
  file : String
  text : String
  deriving DecidableEq, Repr

/-! ### Sources -/

/-- The problems of the sources that cannot be read. -/
def unreadable (inputs : List Input) : List SourceProblem :=
  inputs.zipIdx.flatMap fun (input, source) =>
    match Source.Module.parse input.text with
    | .ok _ => []
    | .error problems => problems.map (⟨source, ·⟩)

/-- The sources that can be read. -/
def readable (inputs : List Input) : List SourceFile :=
  inputs.filterMap fun input =>
    (Source.Module.parse input.text).toOption.map fun content => ⟨input.file, input.text, content⟩

/-- Every source, or everything that is wrong with them. -/
def readSources (inputs : List Input) : Except (List SourceProblem) (List SourceFile) :=
  match unreadable inputs with
  | [] => .ok (readable inputs)
  | problems => .error problems

/-- A source alone, given by its characters. -/
theorem readSources_single {file text : String} {cs : List Char} {content : Source.Module}
    (characters : text = String.ofList cs)
    (parsed : Source.Module.parse (String.ofList cs) = .ok content) :
    readSources [⟨file, text⟩] = .ok [⟨file, text, content⟩] := by
  rw [← characters] at parsed
  simp [readSources, unreadable, readable, parsed, Except.toOption]

/-! ### Mappings -/

/-- The mapping between two types, and its plan. -/
def Compilation.unit (c : Compilation) (source target : Descriptor) (declared : DeclaredAt) :
    Noted Diagnostic Generated.MapUnit := do
  let mapping ← Mapping.build c source target declared
  return ⟨mapping, ← mapping.plan c⟩

/-- The mappings of requests, in order. -/
def Compilation.units (c : Compilation) (requests : List MapRequest) :
    Noted Diagnostic (List Generated.MapUnit) :=
  requests.mapM fun r => c.unit r.source r.target r.declared

/-! ### The pass -/

structure PassResult where
  inputs : List Input
  problems : List SourceProblem
  diagnostics : List Diagnostic
  units : List Generated.MapUnit
  /-- Absent if the sources have errors. -/
  code : Option String
  deriving Repr

/-- The pass over sources that can be read. -/
def compileSources (inputs : List Input) (files : List SourceFile) (compiled : List CompiledType)
    (options : EmitOptions) : Except EmitError PassResult := do
  let c := Compilation.ofSources files compiled
  let requests := c.discover
  let problems := c.problems ++ requests.notes
  let units := c.units requests.value
  let code ←
    if problems.any (·.problem.isError) then pure none
    else some <$> Emission.file c units.value options
  return ⟨inputs, problems, units.notes, units.value, code⟩

/-- A whole pass. Only a failed emission is an error; every other problem is in the result. -/
def compile (inputs : List Input) (compiled : List CompiledType) (options : EmitOptions) :
    Except EmitError PassResult :=
  match readSources inputs with
  | .error problems => .ok ⟨inputs, problems, [], [], none⟩
  | .ok files => compileSources inputs files compiled options

namespace PassResult
variable (r : PassResult)

def plans : List MapPlan := r.units.map (·.plan)

/-- There is an error of either kind. -/
def hasErrors : Bool := r.problems.any (·.problem.isError) || r.diagnostics.any (·.isError)

/-- The first plan from a source to a target. -/
def plan? (source target : String) : Option MapPlan :=
  r.plans.find? fun p => p.source == source && p.target == target

/-- Every problem, those of the sources first. -/
def reports : List Report :=
  let text (source : Nat) := r.inputs[source]?.map (·.text)
  (r.problems.filterMap fun p => (text p.source).map p.problem.report) ++
    r.diagnostics.filterMap fun d => (text d.site.source).map d.report

end PassResult
end StagedMapping
