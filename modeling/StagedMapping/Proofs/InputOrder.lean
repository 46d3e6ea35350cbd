import Mathlib.Data.List.Pairwise
import StagedMapping.Proofs.EmissionOrder

/-! The order of the inputs. A pass over the same inputs in another order gives the same
generated code, gives none as well, or fails for the same reason (`compile_code_perm`). If
the sources can be read and no type is declared twice, what the pass knows and maps is only
numbered differently; otherwise neither order has code. -/
namespace StagedMapping

/-! ### Sources -/

/-- What is wrong with a text that cannot be read. -/
def Input.faults (input : Input) : List Problem :=
  match Source.Module.parse input.text with
  | .ok _ => []
  | .error problems => problems

theorem unreadable_eq (inputs : List Input) : unreadable inputs =
    inputs.zipIdx.flatMap fun f => f.1.faults.map (⟨f.2, ·⟩) := by
  unfold unreadable
  congr 1
  funext ⟨input, source⟩
  unfold Input.faults
  dsimp only
  cases Source.Module.parse input.text <;> rfl

theorem unreadable_eq_nil_iff (inputs : List Input) :
    unreadable inputs = [] ↔ ∀ input ∈ inputs, input.faults = [] := by
  rw [unreadable_eq]
  simp only [List.flatMap_eq_nil_iff, List.map_eq_nil_iff]
  constructor
  · intro h input hinput
    rw [← List.zipIdx_map_fst 0 inputs] at hinput
    obtain ⟨f, hf, rfl⟩ := List.mem_map.1 hinput
    exact h f hf
  · exact fun h f hf => h f.1 (List.fst_mem_of_mem_zipIdx hf)

/-- In another order too, everything can be read or something cannot. -/
theorem readSources_perm {inputs inputs' : List Input} (h : inputs.Perm inputs') :
    (∃ files files', readSources inputs = .ok files ∧ readSources inputs' = .ok files' ∧
        files.Perm files') ∨
      ∃ problems problems', readSources inputs = .error problems ∧
        readSources inputs' = .error problems' := by
  have hiff : unreadable inputs = [] ↔ unreadable inputs' = [] := by
    simp only [unreadable_eq_nil_iff, h.mem_iff]
  unfold readSources
  cases hu : unreadable inputs with
  | nil =>
    rw [hiff.1 hu]
    exact .inl ⟨_, _, rfl, rfl, h.filterMap _⟩
  | cons p rest =>
    cases hu' : unreadable inputs' with
    | nil => exact absurd (hiff.2 hu') (by simp [hu])
    | cons p' rest' => exact .inr ⟨_, _, rfl, rfl⟩

/-! ### Code -/

/-- The code of a pass, from what it knows. -/
def Compilation.passCode (c : Compilation) (options : EmitOptions) :
    Except EmitError (Option String) :=
  if (c.problems ++ c.discover.notes).any (·.problem.isError) then .ok none
  else some <$> Emission.file c (c.units c.discover.value).value options

theorem compileSources_code (inputs : List Input) (files : List SourceFile)
    (compiled : List CompiledType) (options : EmitOptions) :
    (compileSources inputs files compiled options).map (·.code) =
      (Compilation.ofSources files compiled).passCode options := by
  unfold compileSources Compilation.passCode
  generalize Compilation.ofSources files compiled = c
  dsimp only
  split
  · rfl
  · cases Emission.file c (c.units c.discover.value).value options <;> rfl

theorem MapRequest.samePair_comm (r s : MapRequest) : r.samePair s = s.samePair r := by
  unfold MapRequest.samePair Descriptor.sameType
  rw [Bool.beq_comm, Bool.beq_comm (a := r.source.key)]

/-- Mappings of a pass with one target and sources of one name are the same. -/
theorem units_distinct (files : List SourceFile) (compiled : List CompiledType) :
    let c := Compilation.ofSources files compiled
    ∀ a ∈ (c.units c.discover.value).value, ∀ b ∈ (c.units c.discover.value).value,
      a.target.key = b.target.key → a.source.qualified = b.source.qualified → a = b := by
  intro c a ha b hb hkey hname
  have hunits : (c.units c.discover.value).value =
      c.discover.value.map fun r => (c.unit r.source r.target r.declared).value :=
    Noted.mapM_value ..
  rw [hunits] at ha hb
  obtain ⟨r, hr, rfl⟩ := List.mem_map.1 ha
  obtain ⟨s, hs, rfl⟩ := List.mem_map.1 hb
  obtain ⟨rname, hrname⟩ := (c.discover_requested r hr).source_known
  obtain ⟨sname, hsname⟩ := (c.discover_requested s hs).source_known
  have hsource : r.source = s.source := by
    have he : rname = sname := by
      rw [← Compilation.descriptorNamed?_qualified hrname,
        ← Compilation.descriptorNamed?_qualified hsname]
      exact hname
    rw [← he, hrname] at hsname
    exact Option.some.inj hsname
  have htarget : r.target.key = s.target.key := hkey
  suffices hrs : r = s by rw [hrs]
  by_contra hne
  have hsymm : Std.Symm fun r s : MapRequest => r.samePair s = false :=
    ⟨fun r s h => by rwa [MapRequest.samePair_comm]⟩
  have hfalse := c.discover_pairwise.forall hr hs hne
  simp [MapRequest.samePair, Descriptor.sameType, hsource, htarget] at hfalse

theorem passCode_of_problem {c : Compilation} (h : c.problems.any (·.problem.isError) = true)
    (options : EmitOptions) : c.passCode options = .ok none := by
  unfold Compilation.passCode
  rw [List.any_append, h, Bool.true_or, if_pos rfl]

theorem passCode_reordered {σ : Nat → Nat} {files files' : List SourceFile}
    (h : Reordered σ files files') (compiled : List CompiledType) (options : EmitOptions)
    (hd : ((Inventory.declarations files).map (·.1)).Nodup) :
    (Compilation.ofSources files' compiled).passCode options =
      (Compilation.ofSources files compiled).passCode options := by
  obtain ⟨hc, hproblems⟩ := Compilation.ofSources_renumbered h compiled hd
  obtain ⟨hnotes, hunits⟩ := Compilation.units_reordered h compiled hd
  have hsame (ps : List SourceProblem) : (ps.map (·.renumbered σ)).any (·.problem.isError) =
      ps.any (·.problem.isError) := by
    rw [List.any_map]
    rfl
  unfold Compilation.passCode
  rw [List.any_append, List.any_append, hproblems, hnotes.any_eq, hsame, hsame,
    Emission.file_renumbered hc hunits (units_distinct files compiled)]

theorem ofSources_problem {files : List SourceFile} (compiled : List CompiledType)
    (hd : ¬ ((Inventory.declarations files).map (·.1)).Nodup) :
    (Compilation.ofSources files compiled).problems.any (·.problem.isError) = true := by
  unfold Compilation.ofSources
  rw [List.any_append, Inventory.ofSources_error compiled hd, Bool.true_or]

theorem compileSources_perm {inputs inputs' : List Input} {files files' : List SourceFile}
    (h : files.Perm files') (compiled : List CompiledType) (options : EmitOptions) :
    (compileSources inputs' files' compiled options).map (·.code) =
      (compileSources inputs files compiled options).map (·.code) := by
  obtain ⟨σ, hσ⟩ := exists_reordered h
  rw [compileSources_code, compileSources_code]
  by_cases hd : ((Inventory.declarations files).map (·.1)).Nodup
  · exact passCode_reordered hσ compiled options hd
  · have hd' : ¬ ((Inventory.declarations files').map (·.1)).Nodup := by
      have hperm := (Inventory.declarations_reordered hσ).map (·.1)
      rw [hperm.nodup_iff]
      simpa [Function.comp_def] using hd
    rw [passCode_of_problem (ofSources_problem compiled hd),
      passCode_of_problem (ofSources_problem compiled hd')]

/-- Generated code, and the reason why there is none, do not depend on the order of the
inputs. -/
theorem compile_code_perm {inputs inputs' : List Input} (h : inputs.Perm inputs')
    (compiled : List CompiledType) (options : EmitOptions) :
    (compile inputs' compiled options).map (·.code) =
      (compile inputs compiled options).map (·.code) := by
  unfold compile
  rcases readSources_perm h with ⟨files, files', hread, hread', hperm⟩ | ⟨_, _, hread, hread'⟩
  · rw [hread, hread']
    exact compileSources_perm hperm compiled options
  · rw [hread, hread']
    rfl

/-- Two sources, of which the first maps the class of the second. -/
def Sample.pair : List Input :=
  [⟨"dto", "namespace app\nimport domain::*\n@map_from(User)\nclass Dto:\n    name: str\n"⟩,
    ⟨"user", "namespace domain\nclass User:\n    name: str\n"⟩]

theorem compile_code_perm_pair : Sample.pair.Perm Sample.pair.reverse ∧
    Sample.pair.reverse ≠ Sample.pair ∧
    (compile Sample.pair.reverse [] .default).map (·.code) =
      (compile Sample.pair [] .default).map (·.code) :=
  ⟨.swap .., by decide, compile_code_perm (.swap ..) [] .default⟩

end StagedMapping
