/-! Names bound to things, in the order in which they were first bound. Records and scopes
are such lists; `set` keeps their names distinct. -/
namespace StagedMapping.Bindings
variable {α : Type}

/-- What a name is bound to; its first binding counts. -/
def get? (bindings : List (String × α)) (name : String) : Option α :=
  (bindings.find? fun b => b.1 == name).map (·.2)

/-- Bound names in order. -/
def names (bindings : List (String × α)) : List String := bindings.map (·.1)

/-- Binds a name anew: in its place if it is bound, else at the end. -/
def set (bindings : List (String × α)) (name : String) (value : α) : List (String × α) :=
  match bindings with
  | [] => [(name, value)]
  | b :: rest => if b.1 == name then (b.1, value) :: rest else b :: set rest name value

@[simp] theorem get?_nil (name : String) : get? ([] : List (String × α)) name = none := rfl

@[simp] theorem get?_cons (b : String × α) (rest : List (String × α)) (name : String) :
    get? (b :: rest) name = if b.1 == name then some b.2 else get? rest name := by
  simp only [get?, List.find?_cons]
  cases b.1 == name <;> rfl

theorem get?_append (a b : List (String × α)) (n : String) :
    get? (a ++ b) n = (get? a n).or (get? b n) := by
  rw [get?, List.find?_append, Option.map_or]
  rfl

theorem get?_set_same (bindings : List (String × α)) (name : String) (value : α) :
    get? (set bindings name value) name = some value := by
  induction bindings with
  | nil => simp [set]
  | cons b rest ih =>
    unfold set
    split <;> simp_all

theorem get?_set_other (bindings : List (String × α)) {name other : String} (value : α)
    (h : name ≠ other) : get? (set bindings name value) other = get? bindings other := by
  induction bindings with
  | nil => simp [set, h]
  | cons b rest ih =>
    unfold set
    split <;> simp_all

theorem get?_set (bindings : List (String × α)) (name other : String) (value : α) :
    get? (set bindings name value) other =
      if name = other then some value else get? bindings other := by
  by_cases h : name = other
  · rw [if_pos h, ← h, get?_set_same]
  · rw [if_neg h, get?_set_other bindings value h]

theorem get?_isSome (bindings : List (String × α)) (name : String) :
    (get? bindings name).isSome ↔ name ∈ names bindings := by
  induction bindings with
  | nil => simp [names]
  | cons b rest ih =>
    simp only [get?_cons, names, List.map_cons, List.mem_cons] at *
    by_cases h : b.1 = name
    · simp [h]
    · simp [h, ih, Ne.symm h]

/-- A name that is bound stays in its place. -/
theorem names_set (bindings : List (String × α)) (name : String) (value : α) :
    names (set bindings name value) =
      if name ∈ names bindings then names bindings else names bindings ++ [name] := by
  induction bindings with
  | nil => simp [set, names]
  | cons b rest ih =>
    simp only [set, names, List.map_cons, List.mem_cons] at *
    by_cases h : b.1 = name
    · simp [h]
    · simp only [beq_iff_eq, h, if_false, List.map_cons, ih, Ne.symm h, false_or]
      by_cases hm : name ∈ rest.map (·.1) <;> simp [hm]

theorem mem_names_set (bindings : List (String × α)) (name other : String) (value : α) :
    other ∈ names (set bindings name value) ↔ other = name ∨ other ∈ names bindings := by
  rw [← get?_isSome, ← get?_isSome, get?_set]
  by_cases h : name = other
  · simp [h]
  · simp [h, Ne.symm h]

theorem nodup_names_set {bindings : List (String × α)} (h : (names bindings).Nodup)
    (name : String) (value : α) : (names (set bindings name value)).Nodup := by
  rw [names_set]
  split
  · exact h
  · next hn => exact List.nodup_append.2 ⟨h, by simp, by simp; exact fun a ha he => hn (he ▸ ha)⟩

/-- What a name is bound to, put another way. -/
theorem get?_map {β : Type} (g : α → β) (bs : List (String × α)) (n : String) :
    get? (bs.map fun b => (b.1, g b.2)) n = (get? bs n).map g := by
  induction bs with
  | nil => rfl
  | cons b rest ih =>
    rw [List.map_cons, get?_cons, get?_cons, ih]
    split <;> rfl

theorem mem_of_get? {bs : List (String × α)} {n : String} {v : α} (h : get? bs n = some v) :
    (n, v) ∈ bs := by
  obtain ⟨b, hb, rfl⟩ := Option.map_eq_some_iff.1 h
  have he : b.1 = n := by simpa using List.find?_some hb
  exact he ▸ List.mem_of_find?_eq_some hb

theorem get?_of_mem {bs : List (String × α)} (h : (names bs).Nodup) {n : String} {v : α}
    (hm : (n, v) ∈ bs) : get? bs n = some v := by
  induction bs with
  | nil => cases hm
  | cons b rest ih =>
    obtain ⟨hn, hrest⟩ := List.nodup_cons.1 h
    rw [get?_cons]
    rcases List.mem_cons.1 hm with rfl | hm
    · simp
    · have hne : b.1 ≠ n := fun he => hn (List.mem_map.2 ⟨(n, v), hm, he.symm⟩)
      rw [if_neg (by simpa using hne)]
      exact ih hrest hm

/-- Where no name is bound twice, the order of the bindings is no matter. -/
theorem get?_perm {bs cs : List (String × α)} (hp : bs.Perm cs) (h : (names cs).Nodup)
    (n : String) : get? bs n = get? cs n := by
  have hbs : (names bs).Nodup := (hp.map Prod.fst).nodup_iff.2 h
  exact Option.ext fun v => ⟨fun hv => get?_of_mem h (hp.mem_iff.1 (mem_of_get? hv)),
    fun hv => get?_of_mem hbs (hp.mem_iff.2 (mem_of_get? hv))⟩

end StagedMapping.Bindings
