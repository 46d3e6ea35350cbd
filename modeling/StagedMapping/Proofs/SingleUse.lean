import Mathlib.Data.List.Nodup
import StagedMapping.Proofs.Classification
import StagedMapping.Proofs.Occurrence

/-! Uses of variables. No step after a variable reads it, and the initializers that a
factory keeps read it at most once. The arguments of the construction that initialize
nothing (`leftOut`) are not looked at, so a body may read a variable there as often as it
likes (`Factory.not_singleUse`); there is nothing else that keeps a variable from being read
at most once (`Factory.variable_read_once`). -/
namespace StagedMapping
open Source (Ident Argument Statement)

/-- How often a name is among reads. -/
def Source.timesRead (name : String) (reads : List Ident) : Nat :=
  reads.countP (·.text == name)

@[simp] theorem Source.timesRead_append (name : String) (a b : List Ident) :
    timesRead name (a ++ b) = timesRead name a + timesRead name b := List.countP_append

theorem Source.timesRead_eq_zero {name : String} {reads : List Ident} :
    timesRead name reads = 0 ↔ ∀ r ∈ reads, r.text ≠ name := by
  simp [timesRead, List.countP_eq_zero]

open Source (timesRead timesRead_append timesRead_eq_zero)

/-- The arguments of a construction that initialize nothing: those without a name, those
whose name is no property of the target, and those of a property that is `seen` already. -/
def leftOut (target : Descriptor) (seen : List String) : List Argument → List Argument
  | [] => []
  | a :: rest =>
    match a.name?.bind fun n => target.property? n.text with
    | none => a :: leftOut target seen rest
    | some p =>
      if seen.contains p.name then a :: leftOut target seen rest
      else leftOut target (seen ++ [p.name]) rest

/-- What is read after a step, if `post` are the steps after it. -/
def Method.readsAfter (m : Method) (post : List Item) : List Ident :=
  post.flatMap (·.reads) ++ Argument.listReads m.finalArguments

/-- What the arguments read that initialize nothing. -/
def Method.leftOutReads (m : Method) (target : Descriptor) : List Ident :=
  Argument.listReads (leftOut target [] m.finalArguments)

/-- A variable that is declared once in a body is read at most once after it. -/
def Method.SingleUse (m : Method) : Prop :=
  ∀ pre i post name, m.steps = pre ++ i :: post → i.isVariable m.sourceName = true →
    i.declares? = some name → (m.steps.flatMap (·.declared)).count name = 1 →
    timesRead name (m.readsAfter post) ≤ 1

/-! ### Arguments -/

/-- Every argument is kept as an initializer or left out. -/
theorem timesRead_kept_leftOut (target : Descriptor) (name : String) (args : List Argument)
    (kept : List Initializer) :
    timesRead name ((args.foldl (addInitializer target) kept).flatMap (·.value.reads)) +
        timesRead name (Argument.listReads (leftOut target (kept.map (·.target.name)) args)) =
      timesRead name (kept.flatMap (·.value.reads)) + timesRead name (Argument.listReads args) := by
  induction args generalizing kept with
  | nil => rfl
  | cons a rest ih =>
    have hseen (p : Property) : (kept.map (·.target.name)).contains p.name =
        kept.any (·.target.name == p.name) := by
      rw [Bool.eq_iff_iff]
      simp
    simp only [List.foldl_cons, leftOut, addInitializer]
    cases hp : a.name?.bind fun n => target.property? n.text with
    | none =>
      simp only [Argument.listReads, timesRead_append]
      have := ih kept
      omega
    | some p =>
      simp only [hseen]
      split
      · simp only [Argument.listReads, timesRead_append]
        have := ih kept
        omega
      · have := ih (kept ++ [⟨p, a.value⟩])
        simp only [List.map_append, List.map_cons, List.map_nil, List.flatMap_append,
          List.flatMap_cons, List.flatMap_nil, List.append_nil, timesRead_append] at this
        simp only [Argument.listReads, timesRead_append, Argument.reads_eq]
        omega

theorem repeatedReads_eq_nil {seen : List String} {reads : List Ident} :
    repeatedReads seen reads = [] ↔
      (reads.map (·.text)).Nodup ∧ ∀ r ∈ reads, r.text ∉ seen := by
  induction reads generalizing seen with
  | nil => simp [repeatedReads]
  | cons r rest ih =>
    rw [repeatedReads]
    by_cases h : r.text ∈ seen
    · simp [h]
    · simp only [List.contains_eq_mem, h, decide_false, Bool.false_eq_true, if_false, ih,
        List.mem_cons, List.map_cons, List.nodup_cons, List.mem_map]
      grind

/-- Without a repeated read, each variable is read at most once. -/
theorem timesRead_le_of_repeatedFaults {f : Frame} {p : Progress} {kept : List Initializer}
    (h : repeatedFaults f p kept = []) {name : String} (hn : p.isTainted name = true) :
    timesRead name (kept.flatMap (·.value.reads)) ≤ 1 := by
  rw [repeatedFaults, List.map_eq_nil_iff, repeatedReads_eq_nil] at h
  have hcount := List.nodup_iff_count_le_one.1 h.1 name
  rw [List.count, List.countP_map, List.countP_filter] at hcount
  refine Nat.le_trans (List.countP_mono_left fun r _ hr => ?_) hcount
  rw [beq_iff_eq] at hr
  simp [hr, hn]

/-! ### Bodies -/

theorem Item.variable_of_isVariable {param : String} {i : Item} (hv : i.isVariable param = true)
    {name : String} (hn : i.declares? = some name) :
    ∃ value, i.asVariable? param = some (name, value) := by
  cases i with
  | other s => cases hv
  | bind span b =>
    cases hn
    cases hb : b.value with
    | none => simp [isVariable, hb, Source.optionalReads] at hv
    | some value => exact ⟨value, by rw [asVariable?, if_pos hv, hb]; rfl⟩

/-- A step that is a variable taints its name. -/
theorem Progress.Adds.isTainted {f : Frame} {p q : Progress} {items : List Item}
    (h : Adds f p items q) {i : Item} (hi : i ∈ items) (hv : i.isVariable f.sourceParam = true)
    {name : String} (hn : i.declares? = some name) : q.isTainted name = true := by
  obtain ⟨value, hvalue⟩ := Item.variable_of_isVariable hv hn
  have hmem : (name, value) ∈ q.vars.map fun v => (v.name, v.value) := by
    rw [h.vars]
    exact List.mem_append_right _ (List.mem_filterMap.2 ⟨i, hi, hvalue⟩)
  obtain ⟨v, hq, he⟩ := List.mem_map.1 hmem
  cases he
  exact List.any_eq_true.2 ⟨v, hq, beq_self_eq_true v.name⟩

/-- A step after a variable does not read it. -/
theorem Progress.unread_of_run {f : Frame} {p : Progress} {pre post : List Item} {i : Item}
    (h : (run f p (pre ++ i :: post)).notes = []) (hv : i.isVariable f.sourceParam = true)
    {name : String} (hn : i.declares? = some name) :
    ∀ r ∈ post.flatMap (·.reads), r.text ≠ name := by
  intro r hr he
  obtain ⟨j, hj, hread⟩ := List.mem_flatMap.1 hr
  obtain ⟨mid, last, rfl⟩ := List.append_of_mem hj
  rw [← List.cons_append, ← List.append_assoc] at h
  obtain ⟨hadds, hclear⟩ := clear_of_run h
  have htainted := hadds.isTainted (List.mem_append_right pre List.mem_cons_self) hv hn
  rw [← he, hclear.untainted r hread] at htainted
  cases htainted

/-! ### Accepted bodies -/

namespace Sample

/-- A body that reads a variable in the initializer of the name, and once more in another
argument of the construction. -/
def rereading (extra : Source.Argument) : Method :=
  { method "u" "b" [] (name "v") with
    body := some [given "v" (field "u" "name"),
      .ret place (some (.construct place (.named place ["app", "Target"])
        [.named ⟨"name", place⟩ (name "v"), extra]))] }

end Sample

/-- In the body of a factory no step after a variable reads it, and the initializers of the
factory read it at most once. So it is read at most once after its declaration exactly if
the arguments that initialize nothing do not read it, or one of them does and no
initializer. -/
theorem Factory.variable_read_once {c : Compilation} {source target : Descriptor}
    {declared : DeclaredAt} {m : Method} {f : Factory}
    (h : Factory.ofMethod c source target declared m = .ok f) {pre post : List Item} {i : Item}
    {name : String} (hm : m.steps = pre ++ i :: post) (hv : i.isVariable m.sourceName = true)
    (hn : i.declares? = some name) :
    (∀ r ∈ post.flatMap (·.reads), r.text ≠ name) ∧
    timesRead name (f.initializers.flatMap (·.value.reads)) ≤ 1 ∧
    (timesRead name (m.readsAfter post) ≤ 1 ↔
      timesRead name (m.leftOutReads target) = 0 ∨
      (timesRead name (m.leftOutReads target) = 1 ∧
        timesRead name (f.initializers.flatMap (·.value.reads)) = 0)) := by
  have hf := Factory.ofMethod_describes h
  have hclear := hf.clear
  have hunread : ∀ r ∈ post.flatMap (·.reads), r.text ≠ name :=
    Progress.unread_of_run (hm ▸ hclear) hv hn
  have htainted := (Progress.run_adds hclear).isTainted
    (hm ▸ List.mem_append_right pre List.mem_cons_self) hv hn
  have honce : timesRead name (f.initializers.flatMap (·.value.reads)) ≤ 1 :=
    timesRead_le_of_repeatedFaults hf.once htainted
  have htotal : timesRead name (f.initializers.flatMap (·.value.reads)) +
      timesRead name (m.leftOutReads target) = timesRead name (m.readsAfter post) := by
    have hargs := timesRead_kept_leftOut target name m.finalArguments []
    rw [hf.initializers, Method.readsAfter, timesRead_append, timesRead_eq_zero.2 hunread]
    exact hargs
  refine ⟨hunread, honce, ?_⟩
  omega

theorem Factory.variable_read_once_rereading :
    ∃ f, Factory.ofMethod Sample.compilation Sample.user Sample.target ⟨0, Sample.place⟩
        (Sample.rereading (.positional (Sample.text "v"))) = .ok f ∧
      timesRead "v" (f.initializers.flatMap (·.value.reads)) ≤ 1 :=
  ⟨_, rfl, (Factory.variable_read_once (rfl : Factory.ofMethod Sample.compilation Sample.user
    Sample.target ⟨0, Sample.place⟩ (Sample.rereading (.positional (Sample.text "v"))) = .ok _)
    (rfl : _ = [] ++ _ :: []) rfl rfl).2.1⟩

theorem Sample.not_singleUse_rereading {extra : Source.Argument}
    (hr : timesRead "v" ((rereading extra).readsAfter []) = 2) : ¬ (rereading extra).SingleUse := by
  intro h
  have hone := h [] _ [] "v" rfl rfl rfl rfl
  omega

/-- A body is accepted that reads a variable again in an argument without a name, in one
that names no property, or in a second one for a property. -/
theorem Factory.not_singleUse :
    List.Forall (fun extra =>
        (∃ f, Factory.ofMethod Sample.compilation Sample.user Sample.target ⟨0, Sample.place⟩
          (Sample.rereading extra) = .ok f) ∧ ¬ (Sample.rereading extra).SingleUse)
      [.positional (Sample.name "v"), .named ⟨"other", Sample.place⟩ (Sample.name "v"),
        .named ⟨"name", Sample.place⟩ (Sample.name "v")] := by
  refine ⟨⟨⟨_, rfl⟩, ?_⟩, ⟨⟨_, rfl⟩, ?_⟩, ⟨⟨_, rfl⟩, ?_⟩⟩
  all_goals exact Sample.not_singleUse_rereading rfl

end StagedMapping
