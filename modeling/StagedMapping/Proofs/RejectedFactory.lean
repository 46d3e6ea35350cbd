import StagedMapping.Proofs.Agreement
import StagedMapping.Proofs.Classification

/-! Rejected factories. A method of a target may be rejected by its analysis, or by the
planning of the factory that it describes. Either way nothing is left of it but its
diagnostics: the target is mapped as it would be without the method, whatever methods stand
before it and after it (`Compilation.unit_without_rejected`). -/
namespace StagedMapping

/-- The factory that a method of a target describes. A method that is no factory describes
none, and neither does one that is rejected. -/
def Factory.ofMethod? (c : Compilation) (source target : Descriptor) (declared : DeclaredAt)
    (m : Method) : Noted Diagnostic (Option Factory) :=
  if m.name = Convention.factoryMethod ∧ m.body.isSome then
    match ofMethod c source target declared m with
    | .ok f => pure (some f)
    | .error faults => ⟨none, faults⟩
  else pure none

namespace Mapping
variable (c : Compilation) (source target : Descriptor) (declared : DeclaredAt)

/-! ### Mappings with some methods only -/

/-- The mapping of a target with other methods. -/
def ofMethods (methods : List Method) : Noted Diagnostic Mapping :=
  build c source { target with methods } declared

theorem ofMethods_factories (methods : List Method) :
    (ofMethods c source target declared methods).value.factories =
      methods.filterMap fun m => (Factory.ofMethod? c source target declared m).value := by
  show ((methods.filter _).map (Factory.ofMethod c source target declared)).filterMap _ = _
  rw [List.filterMap_map, List.filterMap_filter]
  congr 1
  funext m
  simp only [Factory.ofMethod?, Bool.and_eq_true, beq_iff_eq, Function.comp_apply]
  split
  · cases Factory.ofMethod c source target declared m <;> rfl
  · rfl

theorem ofMethods_notes (methods : List Method) :
    (ofMethods c source target declared methods).notes =
      methods.flatMap fun m => (Factory.ofMethod? c source target declared m).notes := by
  show ((methods.filter _).map (Factory.ofMethod c source target declared)).flatMap _ = _
  induction methods with
  | nil => rfl
  | cons m rest ih =>
    rw [List.flatMap_cons, ← ih, Factory.ofMethod?, List.filter_cons]
    simp only [Bool.and_eq_true, beq_iff_eq]
    split
    · rw [List.map_cons, List.flatMap_cons]
      cases Factory.ofMethod c source target declared m <;> rfl
    · rfl

/-- Planning reads nothing of a mapping that its methods make. -/
theorem ofMethods_planFactories (methods others : List Method) (merged : Option Lambda)
    (fs : List Factory) :
    (ofMethods c source target declared methods).value.planFactories c merged fs =
      (ofMethods c source target declared others).value.planFactories c merged fs := by
  induction fs generalizing merged with
  | nil => rfl
  | cons f rest ih =>
    rw [planFactories_cons, planFactories_cons]
    simp only [ih]
    rfl

end Mapping

/-! ### What is noted of one method -/

/-- The diagnostics of a method itself: those of its analysis or else, if it describes a
factory, those of the planning of it after the methods before it. -/
def Compilation.rejection (c : Compilation) (source target : Descriptor) (declared : DeclaredAt)
    (before : List Method) (m : Method) : List Diagnostic :=
  let described := Factory.ofMethod? c source target declared m
  match described.value with
  | none => described.notes
  | some f =>
    let earlier := (Mapping.ofMethods c source target declared before).value
    (earlier.planStep c (earlier.planFactories c none earlier.factories).value.1 f).notes

section
variable {c : Compilation} {source target : Descriptor} {declared : DeclaredAt}
  {before : List Method} {m : Method}

theorem Compilation.rejection_of_none
    (h : (Factory.ofMethod? c source target declared m).value = none) :
    c.rejection source target declared before m =
      (Factory.ofMethod? c source target declared m).notes := by
  simp only [rejection, h]

theorem Compilation.rejection_of_some {f : Factory}
    (h : (Factory.ofMethod? c source target declared m).value = some f) :
    let earlier := (Mapping.ofMethods c source target declared before).value
    c.rejection source target declared before m =
      (earlier.planStep c (earlier.planFactories c none earlier.factories).value.1 f).notes := by
  simp only [rejection, h]

theorem Factory.ofMethod?_notes {f : Factory}
    (h : (ofMethod? c source target declared m).value = some f) :
    (ofMethod? c source target declared m).notes = [] := by
  unfold ofMethod? at h ⊢
  repeat' split
  · rfl
  · simp_all
  · rfl

end

/-- The pass with other methods in the descriptor of a type. -/
def Compilation.withMethods (c : Compilation) (type : String) (methods : List Method) :
    Compilation :=
  { c with types := c.types.map fun (name, d) =>
      (name, if name = type then { d with methods } else d) }

theorem Compilation.withMethods_agree (c : Compilation) (type : String) (methods : List Method)
    (i : Nat) : c.Agree (c.withMethods type methods) i i where
  resolve _ _ := rfl
  outline t := by
    have hget (types : List (String × Descriptor)) (name : String) :
        (Bindings.get? (types.map fun (n, d) =>
          (n, if n = type then { d with methods } else d)) name).map Descriptor.outline =
        (Bindings.get? types name).map Descriptor.outline := by
      induction types with
      | nil => rfl
      | cons entry rest ih =>
        rw [List.map_cons, Bindings.get?_cons, Bindings.get?_cons]
        dsimp only
        by_cases hname : (entry.1 == name) = true
        · rw [if_pos hname, if_pos hname]
          split <;> rfl
        · rw [if_neg hname, if_neg hname, ih]
    exact hget c.types t.qualified

/-! ### A rejected method leaves its diagnostics only -/

namespace Mapping
variable {c : Compilation} {source target : Descriptor} {declared : DeclaredAt}

/-- A step that leaves a note may be left out, with its notes. -/
theorem planFactories_append_cons_of_notes {m : Mapping} {merged : Option Lambda}
    {fs : List Factory} {f : Factory} (gs : List Factory)
    (h : (m.planStep c (m.planFactories c merged fs).value.1 f).notes ≠ []) :
    (m.planFactories c merged (fs ++ f :: gs)).value = (m.planFactories c merged (fs ++ gs)).value ∧
      ∃ first last, (m.planFactories c merged (fs ++ gs)).notes = first ++ last ∧
        (m.planFactories c merged (fs ++ f :: gs)).notes =
          first ++ (m.planStep c (m.planFactories c merged fs).value.1 f).notes ++ last := by
  have hstep := planStep_value_of_notes m c h
  simp only [planFactories_append, planFactories_cons, Noted.bind_value, Noted.bind_notes,
    Noted.pure_value, Noted.pure_notes, hstep, List.nil_append, List.append_nil]
  exact ⟨trivial, _, _, rfl, (List.append_assoc ..).symm⟩

/-- With a rejected method and without it, a target has the same plan, and the diagnostics
with it are those without it and its own. -/
theorem plan_without_rejected {before : List Method} {m : Method} (after : List Method)
    (h : c.rejection source target declared before m ≠ []) :
    let present := ofMethods c source target declared (before ++ m :: after)
    let removed := ofMethods c source target declared (before ++ after)
    (removed.value.plan c).value = (present.value.plan c).value ∧
      ∃ first last, removed.notes ++ (removed.value.plan c).notes = first ++ last ∧
        present.notes ++ (present.value.plan c).notes =
          first ++ c.rejection source target declared before m ++ last := by
  intro present removed
  let earlier := (ofMethods c source target declared before).value
  let finish (made : Option Lambda × List FactoryPlan) : MapPlan :=
    ⟨source.toRef.text, target.toRef.text, made.1.getD earlier.defaultStage, made.2⟩
  have hplan (methods : List Method) : (ofMethods c source target declared methods).value.plan c =
      finish <$> earlier.planFactories c none
        (methods.filterMap fun m => (Factory.ofMethod? c source target declared m).value) := by
    rw [← ofMethods_factories, ← ofMethods_planFactories c source target declared methods before]
    rfl
  simp only [present, removed, hplan, ofMethods_notes, List.filterMap_append, List.filterMap_cons,
    List.flatMap_append, List.flatMap_cons, Noted.map_value, Noted.map_notes]
  cases hf : (Factory.ofMethod? c source target declared m).value with
  | none =>
    rw [Compilation.rejection_of_none hf]
    exact ⟨rfl, _, _, List.append_assoc .., by simp only [List.append_assoc]⟩
  | some f =>
    rw [Compilation.rejection_of_some hf, ofMethods_factories] at h ⊢
    obtain ⟨hvalue, first, last, hremoved, hpresent⟩ := planFactories_append_cons_of_notes
      (after.filterMap fun m => (Factory.ofMethod? c source target declared m).value) h
    rw [Factory.ofMethod?_notes hf, List.nil_append, hvalue, hpresent, hremoved]
    exact ⟨rfl, _ ++ first, last, (List.append_assoc ..).symm, by simp only [List.append_assoc]⟩

end Mapping

namespace Compilation

theorem unit_agree {c d : Compilation} {declared : DeclaredAt}
    (h : c.Agree d declared.source declared.source) (source target : Descriptor) :
    d.unit source target declared = c.unit source target declared :=
  (unit_moved h source target).trans (unit_moved (.refl c _) source target).symm

/-- A rejected method of a target is invisible to everything else: without it, whether the
descriptor of the target in the pass keeps it or not, the target has the same default
properties and the same plan, and nothing but the diagnostics of the method itself is gone. -/
theorem unit_without_rejected (c : Compilation) (source target : Descriptor)
    (declared : DeclaredAt) (before after : List Method) (m : Method)
    (htarget : target.methods = before ++ m :: after)
    (h : c.rejection source target declared before m ≠ []) :
    ∀ d ∈ [c, c.withMethods target.qualified (before ++ after)],
      let present := c.unit source target declared
      let removed := d.unit source { target with methods := before ++ after } declared
      removed.value.plan = present.value.plan ∧
      removed.value.mapping.properties = present.value.mapping.properties ∧
      ∃ first last, removed.notes = first ++ last ∧
        present.notes = first ++ c.rejection source target declared before m ++ last := by
  intro d hd present removed
  have hagree : c.Agree d declared.source declared.source := by
    obtain rfl | rfl : d = c ∨ d = c.withMethods target.qualified (before ++ after) := by
      simpa using hd
    · exact .refl d _
    · exact c.withMethods_agree ..
  have hremoved : removed = c.unit source { target with methods := before ++ after } declared :=
    unit_agree hagree ..
  have hpresent : present =
      c.unit source { target with methods := before ++ m :: after } declared := by
    rw [← htarget]
  obtain ⟨hplan, first, last, hfirst, hlast⟩ := Mapping.plan_without_rejected after h
  rw [hremoved, hpresent]
  refine ⟨hplan, rfl, first, last, ?_, ?_⟩
  · rw [← hfirst]
    simp only [unit, Noted.bind_notes, Noted.pure_notes, List.append_nil]
    rfl
  · rw [← hlast]
    simp only [unit, Noted.bind_notes, Noted.pure_notes, List.append_nil]
    rfl

end Compilation

/-! ### A sample -/

namespace Sample

/-- A method of a source alone, which becomes the default projection if it can be lowered. -/
def merging (value : Source.Expr) : Method :=
  { method "u" "b" [] value with parameters := [⟨"u", user.toRef, none, place⟩] }

/-- A method whose value no tree expresses. -/
def unexpressed : Method := merging (.call place (name "f") [])

/-- A method that makes every name `k`. -/
def constant : Method := merging (text "k")

end Sample

/-- The first of two methods is rejected as it is planned, and the second becomes the default
projection, with the first and without it. -/
theorem Compilation.unit_without_rejected_sample :
    let target := { Sample.target with methods := [Sample.unexpressed, Sample.constant] }
    let present := Sample.compilation.unit Sample.user target ⟨0, Sample.place⟩
    let removed := Sample.compilation.unit Sample.user
      { target with methods := [Sample.constant] } ⟨0, Sample.place⟩
    Sample.compilation.rejection Sample.user target ⟨0, Sample.place⟩ [] Sample.unexpressed ≠ [] ∧
    present.notes.length = 1 ∧ removed.notes = [] ∧
    present.value.plan.defaultStage = ⟨"x", .init "app::Target"
      [("name", .const (.str "k")), ("age", .member (.param "x") "age")]⟩ ∧
    removed.value.plan = present.value.plan := by
  intro target present removed
  have hrejected : Sample.compilation.rejection Sample.user target ⟨0, Sample.place⟩ []
      Sample.unexpressed ≠ [] := List.cons_ne_nil _ _
  exact ⟨hrejected, rfl, rfl, rfl, (Compilation.unit_without_rejected Sample.compilation
    Sample.user target ⟨0, Sample.place⟩ [] [Sample.constant] Sample.unexpressed rfl
    hrejected _ List.mem_cons_self).1⟩

end StagedMapping
