import Mathlib
import StagedMapping.Proofs.EmittedTree
import StagedMapping.Proofs.WrittenTrees

/-! What the text of a tree tells of its evaluation. Two trees in plans of passes share a text
exactly if they read as one tree (`texts_shared_iff`), so trees without ambiguous parts evaluate
alike if their texts are the same. Other trees need not: a member or a call is written after the
operand of an operation before it, with nothing that says which of them comes first
(`texts_shared_apart`). -/
namespace StagedMapping
open Generated

/-- The trees may be of different plans, and the plans of different passes. -/
theorem texts_shared_iff {inputs inputs' : List Input} {compiled compiled' : List CompiledType}
    {options options' : EmitOptions} {result result' : PassResult} {plan plan' : MapPlan}
    {t u : Tree} (h : compile inputs compiled options = .ok result)
    (h' : compile inputs' compiled' options' = .ok result') (hp : plan ∈ result.plans)
    (hp' : plan' ∈ result'.plans) (ht : t.OccursIn plan) (hu : u.OccursIn plan') :
    (t.text = u.text ↔ t.asRead = u.asRead) ∧
      (t.Plain → u.Plain → t.text = u.text → ∀ scope, t.eval scope = u.eval scope) := by
  have hwritten : t.Written := compile_written h hp ht
  have hwritten' : u.Written := compile_written h' hp' hu
  have hread : t.text = u.text ↔ t.asRead = u.asRead := hwritten.text_eq_iff hwritten'
  refine ⟨hread, fun hplain hplain' htext scope => ?_⟩
  have same : t = u := by
    rw [← hplain.asRead_eq hwritten, ← hplain'.asRead_eq hwritten']
    exact hread.1 htext
  rw [same]

/-! ### A class with both readings of a text -/

namespace Sample
open Source (Expr)

def signsText : String :=
  "namespace m\n@map_from(a::U)\nclass T:\n a: int\n b: int\n def map(u: a::U) -> T:\n  return new T(a = (-u.n).abs(), b = -(u.n.abs()))\n"

/-- One property has the size of the negated number, the other the negated size. -/
def signs : List Input := [⟨"m.map", signsText⟩]

def numberedType : CompiledType := ⟨"U", "a", [], [⟨"n", "int", true, true⟩], []⟩

def sourceNumber (start : Nat) : Expr :=
  .field ⟨start, start + 3⟩ (.ident ⟨start, start + 1⟩ "u") "n"

def signsValue : Expr :=
  .method ⟨96, 108⟩ (.paren ⟨96, 102⟩ (.unary ⟨97, 101⟩ .neg (sourceNumber 98))) "abs" []

def signsNegated : Expr :=
  .unary ⟨114, 126⟩ .neg (.paren ⟨115, 126⟩ (.method ⟨116, 125⟩ (sourceNumber 116) "abs" []))

def signsBody : List Source.Statement :=
  [.ret ⟨79, 127⟩ (some (.construct ⟨86, 127⟩ (.named ⟨90, 91⟩ ["T"])
    [.named ⟨"a", ⟨92, 93⟩⟩ signsValue, .named ⟨"b", ⟨110, 111⟩⟩ signsNegated]))]

def signsClass : Source.Class :=
  ⟨⟨12, 128⟩, [twinDecorator 12 "a"], "T", [],
    [⟨⟨38, 44⟩, .readWrite, "a", .named ⟨41, 44⟩ ["int"]⟩,
      ⟨⟨46, 52⟩, .readWrite, "b", .named ⟨49, 52⟩ ["int"]⟩],
    [⟨⟨54, 128⟩, "map", [⟨⟨62, 69⟩, "u", .named ⟨65, 69⟩ ["a", "U"], none⟩],
      some (.named ⟨74, 75⟩ ["T"]), some signsBody⟩]⟩

def signsFile : SourceFile :=
  ⟨"m.map", signsText, ⟨[.space ⟨0, 11⟩ ["m"], .cls signsClass]⟩⟩

def signsTarget : Descriptor :=
  ⟨⟨"m", "T"⟩, [], [⟨⟨"m", "T"⟩, "a", .builtin .int, true, true, ⟨38, 44⟩⟩,
      ⟨⟨"m", "T"⟩, "b", .builtin .int, true, true, ⟨46, 52⟩⟩],
    [⟨⟨"m", "T"⟩, "map", some (.mk "m" "T" []), [⟨"u", .mk "a" "U" [], none, ⟨62, 69⟩⟩],
      some signsBody, ⟨54, 128⟩⟩],
    some ⟨0, ⟨12, 128⟩⟩⟩

def signsPass : Compilation where
  files := [signsFile]
  origins := [("m::T", .declared 0 "m" signsClass), ("a::U", .compiled numberedType)]
  types := [("a::U", .ofCompiled numberedType), ("m::T", signsTarget)]
  problems := []

def signsUnit : MapUnit :=
  (signsPass.unit (.ofCompiled numberedType) signsTarget ⟨0, ⟨12, 128⟩⟩).value

/-- The size of the negated number. -/
def sizeOfNegated : Tree := .call (.unary .neg (.member (.param "x") "n")) .abs []

/-- The negated size of the number. -/
def negatedSize : Tree := .unary .neg (.call (.member (.param "x") "n") .abs [])

set_option maxRecDepth 2000 in
theorem signs_read : readSources signs = .ok [signsFile] :=
  readSources_single rfl (by rw [Source.Module.parse, lex, String.toList_ofList]; cbv)

theorem signs_pass : Compilation.ofSources [signsFile] [numberedType] = signsPass := by cbv

theorem signs_types : Emission.declaredTypes signsPass = [signsTarget] := by cbv

theorem signs_placed : ∃ placed,
    Emission.placedItems ⟨signsPass, crate⟩ [signsUnit] = .ok placed ∧
      ModuleTree.Spellable placed ∧
      Emission.rootFits crate (placed.flatMap (·.item.references)) = true := by
  refine Emission.exists_placed ?_
  unfold Emission.placedItems
  rw [signs_types, List.mergeSort_singleton]
  decide +kernel

theorem signs_stage :
    signsUnit.plan.defaultStage.body = .init "m::T" [("a", sizeOfNegated), ("b", negatedSize)] := by
  rfl

/-- Both trees are in the plan of the pass. -/
theorem signs_compile : ∃ result plan, compile signs [numberedType] .default = .ok result ∧
    plan ∈ result.plans ∧ sizeOfNegated.OccursIn plan ∧ negatedSize.OccursIn plan := by
  obtain ⟨placed, hplaced, hspellable, hfits⟩ := signs_placed
  obtain ⟨result, text, h, -, hunits⟩ := exists_compile signs_read signs_pass rfl rfl crate_read
    hplaced hspellable (.inr (by decide +kernel)) hfits
  have occurs : ∀ b ∈ [("a", sizeOfNegated), ("b", negatedSize)], b.2.OccursIn signsUnit.plan :=
    fun b hb => ⟨_, List.mem_cons_self, signs_stage ▸ .value hb .self⟩
  refine ⟨result, signsUnit.plan, h, ?_, occurs _ List.mem_cons_self,
    occurs _ (List.mem_cons_of_mem _ List.mem_cons_self)⟩
  rw [PassResult.plans, hunits]
  exact List.mem_cons_self

/-- The number is five. -/
def fiveScope : Scope := [("x", .record "a::U" [("n", .int 5)])]

theorem sizeOfNegated_eval : sizeOfNegated.eval fiveScope = .ok (.int 5) := rfl

theorem negatedSize_eval : negatedSize.eval fiveScope = .ok (.int (-5)) := rfl

end Sample

/-- Both trees read as the second of them, so they share its text. -/
theorem texts_shared_iff_signs : ∃ result plan,
    compile Sample.signs [Sample.numberedType] .default = .ok result ∧ plan ∈ result.plans ∧
      Sample.sizeOfNegated.OccursIn plan ∧ Sample.negatedSize.OccursIn plan ∧
      Sample.sizeOfNegated.asRead = Sample.negatedSize ∧
      Sample.sizeOfNegated.text = Sample.negatedSize.text := by
  obtain ⟨result, plan, h, hp, hsize, hnegated⟩ := Sample.signs_compile
  exact ⟨result, plan, h, hp, hsize, hnegated, rfl,
    (texts_shared_iff h h hp hp hsize hnegated).1.2 rfl⟩

/-- They are not the same for the number five. -/
theorem texts_shared_apart : ∃ result plan,
    compile Sample.signs [Sample.numberedType] .default = .ok result ∧ plan ∈ result.plans ∧
      Sample.sizeOfNegated.OccursIn plan ∧ Sample.negatedSize.OccursIn plan ∧
      Sample.sizeOfNegated.text = Sample.negatedSize.text ∧
      Sample.sizeOfNegated.eval Sample.fiveScope ≠ Sample.negatedSize.eval Sample.fiveScope := by
  obtain ⟨result, plan, h, hp, hsize, hnegated⟩ := Sample.signs_compile
  refine ⟨result, plan, h, hp, hsize, hnegated, rfl, ?_⟩
  rw [Sample.sizeOfNegated_eval, Sample.negatedSize_eval]
  intro same
  injection same with same
  injection same with same
  exact absurd same (by decide)

end StagedMapping
