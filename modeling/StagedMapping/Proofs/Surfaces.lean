import StagedMapping.Mapper
import StagedMapping.Proofs.Outcomes

/-! The surfaces of a plan agree. A mapped sequence is read item by item (`MapIter.Yields`),
a query row by row up to the first failure, and a function value by value; all of them give
the results of `map` and `mapWith`, and fail alike if the arguments of a factory do not bind
(`MapPlan.surfaces_agree`). -/
namespace StagedMapping

/-! ### Sequences -/

namespace MapIter

/-- The items that an iterator gives one after the other, and what is left of it. -/
inductive Yields : MapIter → List (Except MapError Value) → MapIter → Prop where
  | stop (it : MapIter) : Yields it [] it
  | next {it after last : MapIter} {r : Except MapError Value}
    {results : List (Except MapError Value)} (h : it.next? = some (r, after))
    (h' : Yields after results last) : Yields it (r :: results) last

/-- The items of an iterator that is read to its end. -/
def Exhausts (it : MapIter) (results : List (Except MapError Value)) : Prop :=
  ∃ last, it.Yields results last ∧ last.next? = none

/-- All items of an iterator. -/
def results (it : MapIter) : List (Except MapError Value) := it.source.map it.function

theorem next?_eq_none {it : MapIter} : it.next? = none ↔ it.source = [] := by
  rw [next?]
  cases it.source <;> simp

theorem results_of_next {it after : MapIter} {r : Except MapError Value}
    (h : it.next? = some (r, after)) : it.results = r :: after.results := by
  rw [next?] at h
  split at h
  case h_1 => cases h
  case h_2 v rest hv =>
  cases h
  rw [results, hv]
  rfl

/-- What was given and what is left make up all items. -/
theorem Yields.results_eq {it last : MapIter} {rs : List (Except MapError Value)}
    (h : it.Yields rs last) : it.results = rs ++ last.results := by
  induction h with
  | stop => rfl
  | next hnext _ ih => rw [results_of_next hnext, ih, List.cons_append]

theorem take_results (n : Nat) (it : MapIter) : (it.take n).1 = it.results.take n := by
  induction n generalizing it with
  | zero => rfl
  | succ n ih =>
    rw [take]
    cases h : it.next? with
    | none =>
      rw [results, next?_eq_none.1 h]
      rfl
    | some next =>
      rw [results_of_next h, List.take_succ_cons, ← ih next.2]

theorem yields_take (n : Nat) (it : MapIter) : it.Yields (it.take n).1 (it.take n).2 := by
  induction n generalizing it with
  | zero => exact .stop it
  | succ n ih =>
    rw [take]
    cases h : it.next? with
    | none => exact .stop it
    | some next => exact .next h (ih next.2)

theorem take_source (n : Nat) (it : MapIter) : (it.take n).2.source = it.source.drop n := by
  induction n generalizing it with
  | zero => rfl
  | succ n ih =>
    rw [take, next?]
    cases h : it.source with
    | nil => simpa using h
    | cons v rest => exact ih ⟨rest, it.function⟩

theorem exhausts_iff {it : MapIter} {rs : List (Except MapError Value)} :
    it.Exhausts rs ↔ rs = it.results := by
  constructor
  · rintro ⟨last, hy, hn⟩
    rw [hy.results_eq, results, next?_eq_none.1 hn, List.map_nil, List.append_nil]
  · rintro rfl
    refine ⟨(it.take it.source.length).2, ?_, ?_⟩
    · have h := it.yields_take it.source.length
      rwa [take_results, List.take_of_length_le (by simp [results])] at h
    · rw [next?_eq_none, take_source, List.drop_length]

end MapIter

/-! ### Plans -/

/-- The results on some values are those of `eager`: of a function value by value, of a
query all or the failure of the first row that fails, and of an iterator item by item, also
after some of them were read. -/
structure SurfacesAgree (values : List Value) (eager function : MapFunction) (query : Query)
    (iter : MapIter) : Prop where
  called : values.map function = values.map eager
  listed : ∀ rows, query.toList = .ok rows ↔ values.map eager = rows.map .ok
  failed : ∀ e, query.toList = .error e ↔ ∃ before v after, values = before ++ v :: after ∧
    (∀ b ∈ before, ∃ row, eager b = .ok row) ∧ eager v = .error (.eval e)
  exhausted : ∀ results, iter.Exhausts results ↔ results = values.map eager
  taken : ∀ n, (iter.take n).1 = (values.map eager).take n ∧
    iter.Yields (iter.take n).1 (iter.take n).2
  resumed : ∀ results last, iter.Yields results last →
    ∀ rest, last.Exhausts rest ↔ results ++ rest = values.map eager

theorem map_lift_eq_ok_iff {α β : Type} {f : α → Eval β} {xs : List α} {ys : List β} :
    xs.map (fun x => (f x).lift) = ys.map .ok ↔ xs.map f = ys.map .ok := by
  induction xs generalizing ys with
  | nil => cases ys <;> simp
  | cons x rest ih => cases ys <;> simp [ih, Eval.lift_eq_ok]

/-- Whatever the stages are, the surfaces over them agree. -/
theorem surfacesAgree_stages (stages : List Lambda) (values : List Value) :
    SurfacesAgree values (fun v => (applyStages stages v).lift)
      (fun v => (applyStages stages v).lift) ⟨values, stages⟩
      ⟨values, fun v => (applyStages stages v).lift⟩ where
  called := rfl
  listed := by
    intro rows
    rw [Query.toList, mapM_eq_ok_iff, map_lift_eq_ok_iff]
  failed := by
    intro e
    simp only [Query.toList, mapM_eq_error_iff, Eval.lift_eq_ok, Eval.lift_eq_error]
  exhausted := fun results => MapIter.exhausts_iff
  taken := fun n => ⟨MapIter.take_results n _, MapIter.yields_take n _⟩
  resumed := by
    intro results last h rest
    have hall := h.results_eq
    rw [MapIter.exhausts_iff, ← List.append_cancel_left_eq results, ← hall]
    rfl

theorem applyStages_singleton (stage : Lambda) (v : Value) :
    applyStages [stage] v = stage.apply v := bind_pure _

theorem Query.foldl_select (stages : List Lambda) (q : Query) :
    stages.foldl Query.select q = ⟨q.rows, q.stages ++ stages⟩ := by
  induction stages generalizing q with
  | nil => rw [List.foldl_nil, List.append_nil]
  | cons s rest ih => rw [List.foldl_cons, ih, Query.select, List.append_assoc]; rfl

/-- The default mapping gives the same on all surfaces, and so does every factory with
whatever arguments, unless the arguments or the factory are refused: then every surface
fails, for one reason. -/
theorem MapPlan.surfaces_agree (m : MapPlan) (values : List Value) :
    SurfacesAgree values m.map m.callable (m.project (.ofRows values)) (m.iter values) ∧
    ∀ digest args,
      (∃ function query iter, m.callableWith digest args = .ok function ∧
        m.projectWith digest args (.ofRows values) = .ok query ∧
        m.iterWith digest args values = .ok iter ∧
        SurfacesAgree values (m.mapWith digest args) function query iter) ∨
      ∃ e, m.callableWith digest args = .error e ∧
        m.projectWith digest args (.ofRows values) = .error e ∧
        m.iterWith digest args values = .error e ∧ ∀ v, m.mapWith digest args v = .error e := by
  constructor
  · have h := surfacesAgree_stages [m.defaultStage] values
    simp only [applyStages_singleton] at h
    exact h
  · intro digest args
    cases hb : m.bind digest args with
    | error e =>
      refine .inr ⟨e, ?_, ?_, ?_, fun v => ?_⟩
      · rw [callableWith, hb]
        rfl
      · rw [projectWith, hb]
        rfl
      · rw [iterWith, callableWith, hb]
        rfl
      · rw [mapWith, hb]
        rfl
    | ok stages =>
      have heager : m.mapWith digest args = fun v => (applyStages stages v).lift := by
        funext v
        rw [mapWith, hb]
        rfl
      refine .inl ⟨fun v => (applyStages stages v).lift, ⟨values, stages⟩,
        ⟨values, fun v => (applyStages stages v).lift⟩, ?_, ?_, ?_, ?_⟩
      · rw [callableWith, hb]
        rfl
      · rw [projectWith, hb]
        exact congrArg Except.ok (Query.foldl_select stages (.ofRows values))
      · rw [iterWith, callableWith, hb]
        rfl
      · rw [heager]
        exact surfacesAgree_stages stages values

end StagedMapping
