import StagedMapping.Generated.Item
import StagedMapping.Generated.PlanCode
import StagedMapping.Mapping

/-! Mappers in generated code: a container type whose functions apply an embedded plan. Each
factory adds functions that take its parameters, told apart by the digest of the factory. -/
namespace StagedMapping.Generated

/-- A mapping with the plan that is emitted for it. -/
structure MapUnit where
  mapping : Mapping
  plan : MapPlan
  deriving Repr

namespace MapUnit

def source (u : MapUnit) : TypeRef := u.mapping.source

def target (u : MapUnit) : TypeRef := u.mapping.target

end MapUnit

/-- The name of a container, which also tells the source if the target is shared by several. -/
def mapperName (source target : TypeRef) (shared : Bool) : String :=
  if shared then target.name ++ "From" ++ source.name ++ Convention.mapperSuffix
  else target.name ++ Convention.mapperSuffix

/-! ### Types of functions -/

def reference (type : Code) : Code := .symbol "&" :: type

def kept (type : Code) : Code := .symbol "&" :: .symbol "'static" :: type

/-- The result of a function that may fail to map. -/
def fallible (type : Code) : Code :=
  absolute ["std", "result", "Result"] ++ angles [type, runtime ["MapError"]]

def iterated (target : Code) : Code :=
  runtime ["MapIter"] ++ angles [code "I :: IntoIter", target]

def iterBounds (source : Code) : Code :=
  code "where I : IntoIterator < Item =" ++ source ++ code "> ,"

/-! ### Bodies -/

def word (name : String) : Code := [.symbol name]

/-- A call of another function of the container. -/
def ownCall (name : String) (args : List Code) : Code :=
  call (code "Self ::" ++ word name) args

/-- A call on the mapper that the container holds. -/
def onMapper (method : String) (args : List Code) : Code := send (ownCall "mapper" []) method args

/-- The mapper is made from the plan when it is first used. -/
def lazyMapper : Code :=
  code "static MAPPER :" ++ absolute ["std", "sync", "OnceLock"] ++ angles [runtime ["Mapper"]] ++
    .symbol "=" :: call (absolute ["std", "sync", "OnceLock", "new"]) [] ++ .symbol ";" ::
    send (word "MAPPER") "get_or_init"
      [.symbol "||" :: call (runtime ["Mapper", "new"]) [ownCall "plan" []]]

/-! ### Functions of every mapper -/

/-- A public function without documentation. -/
def plainFunction (name : String) (params : List (String × Code)) (result body : Code) : Function :=
  ⟨none, true, name, [], params, result, [], body⟩

/-- A function over an iterator of sources. -/
def iterFunction (doc : Option String) (name : String) (params : List (String × Code))
    (source result body : Code) : Function :=
  ⟨doc, true, name, angles [word "I"], ("source", word "I") :: params, result, iterBounds source,
    body⟩

def mapperFunctions (source target plan : Code) (base : String) : List Function :=
  let query := runtime ["Query"]
  [plainFunction "plan" [] (runtime ["MapPlan"]) plan,
    plainFunction "mapper" [] (kept (runtime ["Mapper"])) lazyMapper,
    plainFunction "map" [("source", reference source)] (fallible target)
      (onMapper "map_typed" [word "source"]),
    plainFunction "new_func" [] (runtime ["MapFn"]) (onMapper "callable" []),
    plainFunction "new_expression" [] (kept (runtime ["Lambda"])) (onMapper "expression" []),
    plainFunction base [("source", reference source)] (fallible target)
      (ownCall "map" [word "source"]),
    plainFunction (base ++ "_query") [("query", query)] query (onMapper "project" [word "query"]),
    iterFunction none (base ++ "_iter") [] source (iterated target)
      (onMapper "map_iter_typed" [word "source"])]

/-! ### Functions of factories -/

/-- A parameter of the functions of a factory. -/
structure FactoryParam where
  name : String
  type : Code
  hasDefault : Bool
  deriving Repr

namespace FactoryParam

/-- The declaration; an argument with a default may be left out. -/
def declaration (p : FactoryParam) : String × Code :=
  (p.name, if p.hasDefault then word "Option" ++ angles [p.type] else p.type)

/-- How the argument is added to the others. -/
def push (p : FactoryParam) : Code :=
  let toValue := runtime ["FieldValue", "to_value"]
  if p.hasDefault then
    .symbol "." :: call (word "optional")
      [send (send (word p.name) "as_ref" []) "map" [toValue]]
  else .symbol "." :: call (word "arg") [call toValue [reference (word p.name)]]

end FactoryParam

/-- The name of a parameter; those of the functions themselves are taken. -/
def paramName (name : String) : Except EmitError String :=
  if name = "source" ∨ name = "query" then .ok (name ++ "_arg")
  else identifier .factoryParameter name

def factoryFunctions (source target : Code) (base digest declaration : String)
    (params : List FactoryParam) : List Function :=
  let doc := some (" \x60" ++ declaration ++ "\x60")
  let declared := params.map (·.declaration)
  let names := params.map fun p => word p.name
  let query := runtime ["Query"]
  let withArgs (method subject : String) :=
    onMapper method [[.string digest], word subject, reference (ownCall ("args_" ++ digest) names)]
  [⟨none, false, "args_" ++ digest, [], declared, runtime ["Args"], [],
      call (runtime ["Args", "new"]) [] ++ params.flatMap (·.push)⟩,
    ⟨doc, true, "map_" ++ digest, [], ("source", reference source) :: declared, fallible target, [],
      withArgs "map_typed_with" "source"⟩,
    ⟨doc, true, base ++ "_" ++ digest, [], ("source", reference source) :: declared,
      fallible target, [], ownCall ("map_" ++ digest) (word "source" :: names)⟩,
    ⟨doc, true, base ++ "_query_" ++ digest, [], ("query", query) :: declared, fallible query, [],
      withArgs "project_with" "query"⟩,
    iterFunction doc (base ++ "_iter_" ++ digest) declared source (fallible (iterated target))
      (withArgs "map_iter_typed_with" "source")]

/-! ### Containers -/

variable (s : Surroundings)

def factoryParam (depth : Nat) (p : Parameter) : Except EmitError FactoryParam := do
  let name ← paramName p.name
  return ⟨name, ← s.typeCode depth [] p.type, p.default.isSome⟩

/-- The factories of a plan, each with the parameters that the mapping declares for it. -/
def emittedFactories (u : MapUnit) : List (FactoryPlan × Factory) :=
  u.plan.factories.filterMap fun p =>
    (u.mapping.factories.find? (·.digest == p.digest)).map (p, ·)

/-- The container of a mapping. -/
def mapperItem (u : MapUnit) (shared : Bool) : Except EmitError Item := do
  let level := depth u.target.ns
  let name ← identifier .mapper (mapperName u.source u.target shared)
  let source ← s.typeCode level [] u.source
  let target ← s.typeCode level [] u.target
  let base := "to_" ++ Name.toSnake u.target.name
  let baseWord ← identifier .mapperFunction base
  let plan ← (planCode u.plan).mapError (.nonFinite · u.target.text)
  let factories ← (emittedFactories u).mapM fun (p, f) => do
    return factoryFunctions source target base p.digest p.declaration
      (← f.parameters.mapM (factoryParam s level))
  let functions := mapperFunctions source target plan baseWord ++ factories.flatten
  let doc := " Maps \x60" ++ u.source.text ++ "\x60 to \x60" ++ u.target.text ++ "\x60."
  return {
    name
    references := s.references [] u.source ++ s.references [] u.target ++
      (emittedFactories u).flatMap fun (_, f) => f.parameters.flatMap (s.references [] ·.type)
    code := docCode doc ++ code "pub struct" ++ word name ++ code "; impl" ++ word name ++
      braces (functions.flatMap (·.code)) }

end StagedMapping.Generated
