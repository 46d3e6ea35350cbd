/-! Results that may be failures. Steps that follow each other succeed if each one does
(`bind_eq_ok`), and a list of results succeeds if all of them do (`mapM_eq_ok_iff`). -/
namespace StagedMapping

theorem bind_eq_ok {ε α β : Type} {x : Except ε α} {f : α → Except ε β} {b : β} :
    x >>= f = .ok b ↔ ∃ a, x = .ok a ∧ f a = .ok b := by
  cases x with
  | ok a => exact ⟨fun h => ⟨a, rfl, h⟩, fun ⟨_, ha, h⟩ => by cases ha; exact h⟩
  | error e => exact ⟨nofun, nofun⟩

theorem bind_eq_error {ε α β : Type} {x : Except ε α} {f : α → Except ε β} {e : ε} :
    x >>= f = .error e ↔ x = .error e ∨ ∃ a, x = .ok a ∧ f a = .error e := by
  cases x with
  | ok a => exact ⟨fun h => .inr ⟨a, rfl, h⟩, fun h => by
      rcases h with h | ⟨_, ha, h⟩
      · cases h
      · cases ha; exact h⟩
  | error d => exact ⟨fun h => .inl (by cases h; rfl), fun h => by
      rcases h with h | ⟨_, ha, _⟩
      · cases h; rfl
      · cases ha⟩

theorem map_eq_ok {ε α β : Type} {x : Except ε α} {f : α → β} {b : β} :
    x.map f = .ok b ↔ ∃ a, x = .ok a ∧ f a = b := by
  cases x with
  | ok a => exact ⟨fun h => ⟨a, rfl, Except.ok.inj h⟩, fun ⟨_, ha, h⟩ => by cases ha; rw [← h]; rfl⟩
  | error e => exact ⟨nofun, nofun⟩

theorem mapError_eq_ok {ε δ α : Type} {x : Except ε α} {f : ε → δ} {a : α} :
    x.mapError f = .ok a ↔ x = .ok a := by
  cases x with
  | ok b => exact ⟨fun h => congrArg _ (Except.ok.inj h), fun h => congrArg _ (Except.ok.inj h)⟩
  | error e => exact ⟨nofun, nofun⟩

theorem mapError_eq_error {ε δ α : Type} {x : Except ε α} {f : ε → δ} {d : δ} :
    x.mapError f = .error d ↔ ∃ e, x = .error e ∧ f e = d := by
  cases x with
  | ok b => exact ⟨nofun, nofun⟩
  | error e =>
    exact ⟨fun h => ⟨e, rfl, Except.error.inj h⟩, fun ⟨_, he, h⟩ => by cases he; rw [← h]; rfl⟩

theorem mapM_eq_ok_iff {ε α β : Type} {f : α → Except ε β} {xs : List α} {ys : List β} :
    xs.mapM f = .ok ys ↔ xs.map f = ys.map .ok := by
  induction xs generalizing ys with
  | nil => cases ys <;> simp [pure, Except.pure]
  | cons x rest ih =>
    rw [List.mapM_cons, List.map_cons]
    cases hx : f x with
    | error e => cases ys <;> simp [bind, Except.bind]
    | ok y =>
      cases hrest : rest.mapM f with
      | error e => cases ys <;> simp [bind, Except.bind, ← ih, hrest]
      | ok zs => cases ys <;> simp [bind, Except.bind, pure, Except.pure, ← ih, hrest]

theorem mapM_reverse_eq_ok {ε α β : Type} {f : α → Except ε β} {xs : List α} {ys : List β}
    (h : xs.mapM f = .ok ys) : xs.reverse.mapM f = .ok ys.reverse := by
  rw [mapM_eq_ok_iff] at h ⊢
  rw [List.map_reverse, List.map_reverse, h]

/-- A failure is that of the first element that fails. -/
theorem mapM_eq_error_iff {ε α β : Type} {f : α → Except ε β} {xs : List α} {e : ε} :
    xs.mapM f = .error e ↔ ∃ before x after, xs = before ++ x :: after ∧
      (∀ b ∈ before, ∃ y, f b = .ok y) ∧ f x = .error e := by
  induction xs with
  | nil => simp [pure, Except.pure]
  | cons x rest ih =>
    have htail {z : β} (hz : f x = .ok z) : (x :: rest).mapM f = .error e ↔
        rest.mapM f = .error e := by
      rw [List.mapM_cons, hz]
      cases rest.mapM f <;> simp [bind, Except.bind, pure, Except.pure]
    constructor
    · intro h
      cases hx : f x with
      | error d =>
        rw [List.mapM_cons, hx] at h
        cases h
        exact ⟨[], x, rest, rfl, nofun, hx⟩
      | ok z =>
        obtain ⟨before, y, after, rfl, hb, hy⟩ := ih.1 ((htail hx).1 h)
        refine ⟨x :: before, y, after, rfl, fun b hm => ?_, hy⟩
        rcases List.mem_cons.1 hm with rfl | hm
        · exact ⟨z, hx⟩
        · exact hb b hm
    · rintro ⟨before, y, after, hxs, hb, hy⟩
      cases before with
      | nil =>
        cases hxs
        rw [List.mapM_cons, hy]
        rfl
      | cons b before =>
        cases hxs
        obtain ⟨z, hz⟩ := hb x List.mem_cons_self
        rw [htail hz, ih]
        exact ⟨before, y, after, rfl, fun b hm => hb b (List.mem_cons_of_mem _ hm), hy⟩

section
variable {ε α β γ : Type} {f : α → Except ε β} {xs : List α} {ys : List β}

theorem exists_mapM_eq_ok (h : ∀ x ∈ xs, ∃ y, f x = .ok y) : ∃ ys, xs.mapM f = .ok ys := by
  simp only [mapM_eq_ok_iff]
  induction xs with
  | nil => exact ⟨[], rfl⟩
  | cons x rest ih =>
    obtain ⟨y, hy⟩ := h x List.mem_cons_self
    obtain ⟨ys, hys⟩ := ih fun x hx => h x (List.mem_cons_of_mem _ hx)
    exact ⟨y :: ys, by rw [List.map_cons, List.map_cons, hy, hys]⟩

theorem exists_of_mapM_eq_ok (h : xs.mapM f = .ok ys) {y : β} (hy : y ∈ ys) :
    ∃ x ∈ xs, f x = .ok y := by
  have hmem : Except.ok y ∈ xs.map f := by
    rw [mapM_eq_ok_iff.1 h]
    exact List.mem_map_of_mem hy
  exact List.mem_map.1 hmem

theorem exists_mem_of_mapM_eq_ok (h : xs.mapM f = .ok ys) {x : α} (hx : x ∈ xs) :
    ∃ y ∈ ys, f x = .ok y := by
  have hmem : f x ∈ ys.map Except.ok := by
    rw [← mapM_eq_ok_iff.1 h]
    exact List.mem_map_of_mem hx
  obtain ⟨y, hy, he⟩ := List.mem_map.1 hmem
  exact ⟨y, hy, he.symm⟩

/-- What each result shows of the element it is made from, all of them show. -/
theorem map_eq_of_mapM_eq_ok (h : xs.mapM f = .ok ys) {g : β → γ} {k : α → γ}
    (hf : ∀ x ∈ xs, ∀ y, f x = .ok y → g y = k x) : ys.map g = xs.map k := by
  rw [mapM_eq_ok_iff] at h
  induction xs generalizing ys with
  | nil =>
    rw [List.map_eq_nil_iff.1 h.symm]
    rfl
  | cons x rest ih =>
    cases ys with
    | nil => cases h
    | cons y ys =>
      obtain ⟨hx, hrest⟩ := List.cons.inj h
      rw [List.map_cons, List.map_cons, hf x List.mem_cons_self y hx,
        ih hrest fun x hx => hf x (List.mem_cons_of_mem _ hx)]

end
end StagedMapping
