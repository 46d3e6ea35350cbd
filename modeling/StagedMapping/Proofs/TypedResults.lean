import StagedMapping.Proofs.TypedValues

/-! Typed results of mappings. The fields of a mapped record are set on the record of some typed
value, one after the other; where their names are different, a field has the mapped value if there
is one, and else the value it started with (`Bindings.get?_overwritten`). So a typed result is,
field by field, what these values convert to, and a failure is that of the first field that fails
(`intoTargetFrom_overwrites`); the order in which fields were mapped does not show. -/
namespace StagedMapping

/-! ### Overwriting -/

namespace Bindings
variable {α : Type}

theorem get?_overwritten {new : List (String × α)} (h : (names new).Nodup) (old : List (String × α))
    (name : String) : get? (new.foldl (fun r f => set r f.1 f.2) old) name =
      (get? new name).or (get? old name) := by
  induction new generalizing old with
  | nil => rfl
  | cons f rest ih =>
    obtain ⟨hname, hrest⟩ := List.nodup_cons.1 h
    rw [List.foldl_cons, ih hrest, get?_set, get?_cons]
    by_cases he : f.1 = name
    · have hnone : get? rest name = none := by
        rw [← Option.not_isSome_iff_eq_none, get?_isSome]
        exact he ▸ hname
      simp [he, hnone]
    · simp [he]

theorem nodup_names_overwritten (new : List (String × α)) {old : List (String × α)}
    (h : (names old).Nodup) : (names (new.foldl (fun r f => set r f.1 f.2) old)).Nodup := by
  induction new generalizing old with
  | nil => exact h
  | cons f rest ih => exact ih (nodup_names_set h f.1 f.2)

end Bindings

namespace FieldType

/-! ### Fields by position -/

/-- The value of the field at a position. -/
def fieldAt : (fields : List (String × Access × FieldType)) → FieldCarriers fields →
    (i : Fin fields.length) → (fields.get i).2.2.Carrier
  | (_, _, _) :: _, (a, _), ⟨0, _⟩ => a
  | (_, _, _) :: rest, (_, r), ⟨i + 1, h⟩ => fieldAt rest r ⟨i, Nat.lt_of_succ_lt_succ h⟩

theorem toFields_get?_fieldAt : (fields : List (String × Access × FieldType)) →
    (Bindings.names fields).Nodup → (r : FieldCarriers fields) → (i : Fin fields.length) →
    Bindings.get? (toFields fields r) (fields.get i).1 =
      some (toValue (fields.get i).2.2 (fieldAt fields r i))
  | (name, _, type) :: rest, _, (a, r), ⟨0, _⟩ => by
    rw [toFields, Bindings.get?_cons]
    exact if_pos (beq_self_eq_true name)
  | (name, access, type) :: rest, h, (a, r), ⟨i + 1, hi⟩ => by
    obtain ⟨hname, hrest⟩ := List.nodup_cons.1 h
    have hlt : i < rest.length := Nat.lt_of_succ_lt_succ hi
    have hne : name ≠ (rest.get ⟨i, hlt⟩).1 := fun he =>
      hname (List.mem_map.2 ⟨_, List.get_mem rest ⟨i, hlt⟩, he.symm⟩)
    rw [toFields, Bindings.get?_cons]
    show (if name == (rest.get ⟨i, hlt⟩).1 then _ else _) = _
    rw [if_neg (by simpa using hne)]
    exact toFields_get?_fieldAt rest hrest r ⟨i, hlt⟩

/-! ### Conversion by position -/

section
variable {value : String → Value}

theorem convertFields_eq_ok_iff : {fields : List (String × Access × FieldType)} →
    {r : FieldCarriers fields} → convertFields value fields = .ok r ↔
      ∀ i : Fin fields.length,
        ofValue (fields.get i).2.2 (value (fields.get i).1) = .ok (fieldAt fields r i)
  | [], () => ⟨fun _ i => i.elim0, fun _ => rfl⟩
  | (name, access, type) :: rest, (a, r) => by
    constructor
    · intro h
      obtain ⟨b, hb, h⟩ := bind_eq_ok.1 h
      obtain ⟨s, hs, h⟩ := bind_eq_ok.1 h
      cases h
      rintro ⟨_ | i, hi⟩
      · exact hb
      · exact convertFields_eq_ok_iff.1 hs ⟨i, Nat.lt_of_succ_lt_succ hi⟩
    · intro h
      have hfirst : ofValue type (value name) = .ok a := h ⟨0, Nat.zero_lt_succ _⟩
      have hrest : convertFields value rest = .ok r :=
        convertFields_eq_ok_iff.2 fun i => h i.succ
      rw [convertFields, hfirst, hrest]
      rfl

/-- A failure is that of the first field that fails. -/
theorem convertFields_eq_error_iff {e : ConvertError} :
    {fields : List (String × Access × FieldType)} → convertFields value fields = .error e ↔
      ∃ i : Fin fields.length,
        ofValue (fields.get i).2.2 (value (fields.get i).1) = .error e ∧
        ∀ j < i, ∃ a, ofValue (fields.get j).2.2 (value (fields.get j).1) = .ok a
  | [] => ⟨nofun, fun ⟨i, _⟩ => i.elim0⟩
  | (name, access, type) :: rest => by
    constructor
    · intro h
      rcases bind_eq_error.1 h with h | ⟨a, ha, h⟩
      · exact ⟨⟨0, Nat.zero_lt_succ _⟩, h, fun j hj => absurd hj (Nat.not_lt_zero _)⟩
      · have hrest : convertFields value rest = .error e := by
          rcases bind_eq_error.1 h with h | ⟨_, _, h⟩
          · exact h
          · cases h
        obtain ⟨i, hi, hbefore⟩ := convertFields_eq_error_iff.1 hrest
        refine ⟨i.succ, hi, ?_⟩
        rintro ⟨_ | j, hj⟩ hlt
        · exact ⟨a, ha⟩
        · exact hbefore ⟨j, Nat.lt_of_succ_lt_succ hj⟩ (Nat.lt_of_succ_lt_succ hlt)
    · rintro ⟨⟨_ | i, hi⟩, herror, hbefore⟩
      · have hfirst : ofValue type (value name) = .error e := herror
        rw [convertFields, hfirst]
        rfl
      · obtain ⟨a, ha⟩ : ∃ a, ofValue type (value name) = .ok a :=
          hbefore ⟨0, Nat.zero_lt_succ _⟩ (Nat.zero_lt_succ _)
        have hrest : convertFields value rest = .error e :=
          convertFields_eq_error_iff.2 ⟨⟨i, Nat.lt_of_succ_lt_succ hi⟩, herror,
            fun j hj => hbefore j.succ (Nat.succ_lt_succ hj)⟩
        rw [convertFields, ha, hrest]
        rfl

theorem convertFields_isOk_iff {fields : List (String × Access × FieldType)} :
    (∃ r, convertFields value fields = .ok r) ↔ ∀ i : Fin fields.length,
      ∃ a, ofValue (fields.get i).2.2 (value (fields.get i).1) = .ok a := by
  constructor
  · rintro ⟨r, hr⟩ i
    exact ⟨_, convertFields_eq_ok_iff.1 hr i⟩
  · intro h
    cases hconvert : convertFields value fields with
    | ok r => exact ⟨r, rfl⟩
    | error e =>
      obtain ⟨i, hi, -⟩ := convertFields_eq_error_iff.1 hconvert
      obtain ⟨a, ha⟩ := h i
      rw [hi] at ha
      cases ha

end

/-! ### Mapped records -/

section
variable {fields : List (String × Access × FieldType)}

/-- What the field at a position is made of: the value that was mapped to its name, else the one it
starts with. -/
def overwritten (start : FieldCarriers fields) (produced : List (String × Value))
    (i : Fin fields.length) : Value :=
  (Bindings.get? produced (fields.get i).1).getD
    (toValue (fields.get i).2.2 (fieldAt fields start i))

/-- What a name has in a mapped record, else in the record it is set on. -/
def overwrittenNamed (start : FieldCarriers fields) (produced : List (String × Value))
    (name : String) : Value :=
  ((Bindings.get? produced name).or (Bindings.get? (toFields fields start) name)).getD .none

theorem overwrittenNamed_get (hfields : (Bindings.names fields).Nodup)
    (start : FieldCarriers fields) (produced : List (String × Value)) (i : Fin fields.length) :
    overwrittenNamed start produced (fields.get i).1 = overwritten start produced i := by
  rw [overwrittenNamed, toFields_get?_fieldAt fields hfields start i, overwritten]
  cases Bindings.get? produced (fields.get i).1 <;> rfl

theorem intoTargetFrom_eq {ns name : String} {params : List String}
    (hfields : (Bindings.names fields).Nodup) (start : FieldCarriers fields)
    {produced : List (String × Value)} (hproduced : (Bindings.names produced).Nodup)
    (typeName : String) :
    intoTargetFrom (record ns name params fields) start (.record typeName produced) =
      (convertFields (overwrittenNamed start produced) fields).mapError .convert := by
  have hkept : (Bindings.names (toFields fields start)).Nodup := by rwa [names_toFields]
  rw [intoTargetFrom, ofFields_eq _ (overwrittenNamed start produced) hfields
    (Bindings.nodup_names_overwritten produced hkept) fun f hf => ?_]
  rw [Bindings.get?_overwritten hproduced, overwrittenNamed, toFields_get? start f hf]
  cases Bindings.get? produced f.1 <;> rfl

end
end FieldType

open FieldType in
/-- Typed results are the start values overwritten by what was mapped. The result has, in each
field, what the value of the field converts to: the mapped one, and else the one at the start. There
is a result if all of these convert, and otherwise the failure of the first that does not. The order
in which fields were mapped is no matter, nor is the name of the mapped record. -/
theorem intoTargetFrom_overwrites {ns name : String} {params : List String}
    {fields : List (String × Access × FieldType)} (hfields : (Bindings.names fields).Nodup)
    (start : FieldCarriers fields) {produced : List (String × Value)}
    (hproduced : (Bindings.names produced).Nodup) (typeName : String) :
    let result := intoTargetFrom (.record ns name params fields) start (.record typeName produced)
    let converted (i : Fin fields.length) :=
      ofValue (fields.get i).2.2 (overwritten start produced i)
    ((∃ r, result = .ok r) ↔ ∀ i, ∃ a, converted i = .ok a) ∧
      (∀ r, result = .ok r ↔ ∀ i, converted i = .ok (fieldAt fields r i)) ∧
      (∀ e, result = .error e ↔ ∃ i c, e = .convert c ∧ converted i = .error c ∧
        ∀ j < i, ∃ a, converted j = .ok a) ∧
      ∀ otherName reordered, reordered.Perm produced →
        intoTargetFrom (.record ns name params fields) start (.record otherName reordered) =
          result := by
  intro result converted
  have hresult : result =
      (convertFields (overwrittenNamed start produced) fields).mapError .convert :=
    intoTargetFrom_eq hfields start hproduced typeName
  refine ⟨?_, fun r => ?_, fun e => ?_, fun otherName reordered hperm => ?_⟩
  · simp only [hresult, mapError_eq_ok, convertFields_isOk_iff, overwrittenNamed_get hfields]
    exact Iff.rfl
  · rw [hresult, mapError_eq_ok, convertFields_eq_ok_iff]
    simp only [overwrittenNamed_get hfields]
    exact Iff.rfl
  · rw [hresult, mapError_eq_error]
    simp only [convertFields_eq_error_iff, overwrittenNamed_get hfields]
    constructor
    · rintro ⟨c, ⟨i, hi⟩, rfl⟩
      exact ⟨i, c, rfl, hi⟩
    · rintro ⟨i, c, rfl, hi⟩
      exact ⟨c, ⟨i, hi⟩, rfl⟩
  · have hnames : (Bindings.names reordered).Nodup :=
      (hperm.map Prod.fst).nodup_iff.2 hproduced
    have hsame : overwrittenNamed start reordered = overwrittenNamed start produced := by
      funext n
      rw [overwrittenNamed, overwrittenNamed, Bindings.get?_perm hperm hproduced]
    rw [intoTargetFrom_eq hfields start hnames, hsame]
    exact hresult.symm

/-- A summary whose name and number are mapped, in either order, and whose city is not. -/
theorem intoTargetFrom_overwrites_summary :
    let fields : List (String × Access × FieldType) :=
      [("name", .readWrite, .str), ("city", .readWrite, .str), ("id", .readOnly, .int)]
    let start : FieldType.FieldCarriers fields := ("", "Oslo", 0, ())
    let produced : List (String × Value) := [("id", .int 7), ("extra", .none), ("name", .str "Foo")]
    let summary := FieldType.record "app" "Summary" [] fields
    (Bindings.names fields).Nodup ∧ (Bindings.names produced).Nodup ∧
      intoTargetFrom summary start (.record "Stage" produced) = .ok ("Foo", "Oslo", 7, ()) ∧
      intoTargetFrom summary start (.record "Stage" produced.reverse) =
        .ok ("Foo", "Oslo", 7, ()) := by
  intro fields start produced summary
  have hfields : (Bindings.names fields).Nodup := by decide
  have hproduced : (Bindings.names produced).Nodup := by decide
  obtain ⟨-, hok, -, horder⟩ :=
    @intoTargetFrom_overwrites "app" "Summary" [] fields hfields start produced hproduced "Stage"
  have hresult : intoTargetFrom summary start (.record "Stage" produced) =
      .ok ("Foo", "Oslo", 7, ()) := by
    refine (hok _).2 ?_
    rintro ⟨_ | _ | _ | _, hi⟩
    · rfl
    · rfl
    · rfl
    · exact absurd hi (by simp [fields])
  exact ⟨hfields, hproduced, hresult,
    (horder "Stage" _ produced.reverse_perm).trans hresult⟩

end StagedMapping
