import StagedMapping.Proofs.Classification

/-! Changes out of order. Residuals run before the variables are evaluated, so a name that a
variable reads must not change after it, and a local must not be read before it is declared.
The analysis keeps the second in full. Of the changes it sees assignments at any depth and
declarations at the top of the body; a declaration inside a branch passes, and so does one
that takes the name of the source (`Factory.changed_after_read`). -/
namespace StagedMapping

/-- A relation between the items of a list in order holds if it holds for each two of them. -/
theorem pairwise_of_split {α : Type} {R : α → α → Prop} {items : List α}
    (h : ∀ pre i mid j post, items = pre ++ i :: (mid ++ j :: post) → R i j) :
    items.Pairwise R := by
  induction items with
  | nil => exact .nil
  | cons i rest ih =>
    refine .cons (fun j hj => ?_) (ih fun pre a mid b post he => ?_)
    · obtain ⟨mid, post, rfl⟩ := List.append_of_mem hj
      exact h [] i mid j post rfl
    · exact h (i :: pre) a mid b post (by rw [he, List.cons_append])

theorem rel_of_pairwise {α : Type} {R : α → α → Prop} {pre mid post : List α} {i j : α}
    (h : (pre ++ i :: (mid ++ j :: post)).Pairwise R) : R i j :=
  (List.pairwise_cons.1 (List.pairwise_append.1 h).2.1).1 j
    (List.mem_append_right _ List.mem_cons_self)

/-! ### What a variable reads -/

theorem Item.mem_staged {param : String} {i : Item} (hi : i.isVariable param = true)
    {r : Source.Ident} (hr : r ∈ i.reads) (hs : r.text ≠ param) :
    ∃ v, (r.text, v) ∈ i.staged param := by
  cases i with
  | other s => cases hi
  | bind span b =>
    refine ⟨b.name.text, ?_⟩
    rw [staged, if_pos hi]
    refine List.mem_map_of_mem (List.mem_filter.2 ⟨List.mem_map_of_mem hr, ?_⟩)
    exact decide_eq_true hs

namespace Progress
variable {f : Frame} {p : Progress}

theorem reader?_ne_none {n v : String} (h : (n, v) ∈ p.staged) : p.reader? n ≠ none := by
  intro hn
  rw [reader?, Option.map_eq_none_iff, List.find?_eq_none] at hn
  exact hn (n, v) h (beq_self_eq_true n)

/-- A variable does not assign, and no other step mentions the source. -/
theorem Clear.source_unassigned {i : Item} (h : Clear f p i) :
    ∀ r ∈ i.assigned, r.text ≠ f.sourceParam := by
  intro r hr
  cases hv : i.isVariable f.sourceParam with
  | false => exact h.sourceFree hv r (i.assigned_reads r hr)
  | true =>
    cases i with
    | bind span b => cases hr
    | other s => cases hv

/-- What a step after a variable changes of the names that the variable reads. -/
theorem changed_of_run {pre mid post : List Item} {i j : Item}
    (h : (run f p (pre ++ i :: (mid ++ j :: post))).notes = [])
    (hi : i.isVariable f.sourceParam = true) {r : Source.Ident} (hr : r ∈ i.reads)
    (hj : r.text ∈ j.changed) :
    r.text ∈ j.inner ∨ (r.text = f.sourceParam ∧ j.declares? = some r.text) := by
  rw [← List.cons_append, ← List.append_assoc] at h
  obtain ⟨hadds, hclear⟩ := clear_of_run h
  -- the names read by the variable are staged, all but that of the source
  have hread (hs : r.text ≠ f.sourceParam) :
      (run f p (pre ++ i :: mid)).value.reader? r.text ≠ none := by
    obtain ⟨v, hv⟩ := Item.mem_staged hi hr hs
    apply reader?_ne_none
    rw [hadds.staged]
    exact List.mem_append_right _
      (List.mem_flatMap.2 ⟨i, List.mem_append_right _ List.mem_cons_self, hv⟩)
  rw [Item.changed, Item.declared, List.mem_append, List.mem_append] at hj
  rcases hj with (hd | hinner) | hassigned
  · have hd := Option.mem_toList.1 hd
    refine .inr ⟨Decidable.byContradiction fun hs => ?_, hd⟩
    exact hread hs (hclear.kept _ hd)
  · exact .inl hinner
  · obtain ⟨a, ha, he⟩ := List.mem_map.1 hassigned
    have hs : r.text ≠ f.sourceParam := he ▸ hclear.source_unassigned a ha
    exact absurd (hclear.unassigned a ha) (he ▸ hread hs)

/-- A local that a step reads and that is declared by it or after it was declared before. -/
theorem declared_of_run {pre post : List Item} {i : Item}
    (h : (run f p (pre ++ i :: post)).notes = [])
    (hf : f.locals = (pre ++ i :: post).filterMap (·.declares?)) {r : Source.Ident}
    (hr : r ∈ i.reads) (hd : r.text ∈ (i :: post).filterMap (·.declares?)) :
    r.text ∈ p.declared ∨ r.text ∈ pre.filterMap (·.declares?) := by
  obtain ⟨hadds, hclear⟩ := clear_of_run h
  have hearly := hclear.declared r hr
  have hlocal : r.text ∈ f.locals := by
    rw [hf, List.filterMap_append]
    exact List.mem_append_right _ hd
  rw [isEarly, List.contains_eq_mem, List.contains_eq_mem] at hearly
  simp only [hlocal, decide_true, Bool.true_and, Bool.not_eq_eq_eq_not, Bool.not_false,
    decide_eq_true_eq, hadds.declared, List.mem_append] at hearly
  exact hearly

end Progress

/-! ### Bodies that pass -/

namespace Sample

/-- After the variable, a branch declares the name `m` that it reads. -/
def shadowed : Method :=
  method "u" "b"
    [given "m" (text "a"), given "v" (.binary place (field "u" "name") .add (name "m")),
      .branch place (name "b") [given "m" (text "k")] [] none]
    (name "v")

/-- After the variable, a local takes the name of the source. -/
def resourced : Method :=
  method "u" "b" [given "v" (field "u" "name"), given "u" (text "k")] (name "u")

end Sample

/-! ### Accepted bodies -/

/-- In the body of a factory, a step after a variable changes a name that the variable reads
only by a declaration inside a branch or by one that takes the name of the source; and a
step reads no local of the body before its declaration, other than a parameter of its name. -/
theorem Factory.changed_after_read {c : Compilation} {source target : Descriptor}
    {declared : DeclaredAt} {m : Method} {f : Factory}
    (h : Factory.ofMethod c source target declared m = .ok f) :
    (m.steps.Pairwise fun i j => i.isVariable m.sourceName = true → ∀ r ∈ i.reads,
      (r.text ∈ j.changed ↔
        r.text ∈ j.inner ∨ (r.text = m.sourceName ∧ j.declares? = some r.text))) ∧
    ∀ pre i post, m.steps = pre ++ i :: post → ∀ r ∈ i.reads,
      r.text ∈ (i :: post).filterMap (·.declares?) →
        r.text ∈ m.parameters.map (·.name) ∨ r.text ∈ pre.filterMap (·.declares?) := by
  have hclear := (Factory.ofMethod_describes h).clear
  constructor
  · apply pairwise_of_split
    intro pre i mid j post hm hi r hr
    rw [hm] at hclear
    refine ⟨Progress.changed_of_run hclear hi hr, ?_⟩
    rw [Item.changed, Item.declared, List.mem_append, List.mem_append]
    rintro (hinner | ⟨-, hd⟩)
    · exact .inl (.inr hinner)
    · exact .inl (.inl (Option.mem_toList.2 hd))
  · intro pre i post hm r hr hd
    rw [hm] at hclear
    exact Progress.declared_of_run hclear (by rw [Method.frame, hm]) hr hd

theorem Factory.changed_after_read_shadowed :
    ∃ f, Factory.ofMethod Sample.compilation Sample.user Sample.target ⟨0, Sample.place⟩
        Sample.shadowed = .ok f ∧
      Sample.shadowed.steps.Pairwise fun i j => i.isVariable "u" = true → ∀ r ∈ i.reads,
        (r.text ∈ j.changed ↔ r.text ∈ j.inner ∨ (r.text = "u" ∧ j.declares? = some r.text)) :=
  ⟨_, rfl, (Factory.changed_after_read (rfl : Factory.ofMethod Sample.compilation Sample.user
    Sample.target ⟨0, Sample.place⟩ Sample.shadowed = .ok _)).1⟩

/-- No step after a variable changes a name that the variable reads. -/
def Method.Unchanged (m : Method) : Prop :=
  m.steps.Pairwise fun i j => i.isVariable m.sourceName = true → ∀ r ∈ i.reads, r.text ∉ j.changed

/-- Bodies with such changes are accepted: one of either kind. -/
theorem Factory.not_unchanged :
    (∃ f, Factory.ofMethod Sample.compilation Sample.user Sample.target ⟨0, Sample.place⟩
      Sample.shadowed = .ok f) ∧ ¬ Sample.shadowed.Unchanged ∧
    (∃ f, Factory.ofMethod Sample.compilation Sample.user Sample.target ⟨0, Sample.place⟩
      Sample.resourced = .ok f) ∧ ¬ Sample.resourced.Unchanged := by
  refine ⟨⟨_, rfl⟩, fun h => ?_, ⟨_, rfl⟩, fun h => ?_⟩
  · have hbranch := (List.pairwise_cons.1 (List.pairwise_cons.1 h).2).1
    refine hbranch _ List.mem_cons_self rfl ⟨"m", Sample.place⟩ ?_ List.mem_cons_self
    exact List.mem_cons_of_mem _ List.mem_cons_self
  · have hlocal := (List.pairwise_cons.1 h).1
    exact hlocal _ List.mem_cons_self rfl ⟨"u", Sample.place⟩ List.mem_cons_self
      List.mem_cons_self

end StagedMapping
