import Mathlib.Data.List.Perm.Basic
import StagedMapping.Proofs.Outcomes
import StagedMapping.Typed

/-! Typed values come back from the dynamic values that carry them. The fields of a record are taken
out one after the other, and each removal moves the last field; as long as their names are
different, every field is found wherever it is (`FieldType.ofFields_eq`), so the conversion is the
one field by field (`FieldType.convertFields`). What a type needs for its values to come back is
that an absent option is not mistaken for a value, and that fields have different names
(`FieldType.Faithful`, `FieldType.ofValue_toValue`). -/
namespace StagedMapping.FieldType

/-! ### Removing fields -/

section
open scoped List

/-- Removing an element moves others, and keeps them. -/
theorem swapRemove_perm {α : Type} {xs : List α} {i : Nat} (h : i < xs.length) :
    xs[i] :: swapRemove xs i ~ xs := by
  rcases xs.eq_nil_or_concat' with rfl | ⟨front, last, rfl⟩
  · cases h
  · rw [swapRemove, List.getLast?_concat]
    dsimp only
    by_cases hi : i < front.length
    · have hset : last :: front.eraseIdx i ~ front.set i last := by
        have hperm := List.getElem_cons_eraseIdx_perm (l := front.set i last) (n := i)
          (by rwa [List.length_set])
        rwa [List.getElem_set_self, List.eraseIdx_set_eq] at hperm
      rw [List.set_append_left _ _ hi, List.dropLast_concat, List.getElem_append_left hi]
      calc front[i] :: front.set i last
        _ ~ front[i] :: last :: front.eraseIdx i := hset.symm.cons _
        _ ~ last :: front[i] :: front.eraseIdx i := .swap ..
        _ ~ last :: front := (List.getElem_cons_eraseIdx_perm hi).cons _
        _ ~ front ++ [last] := (List.perm_append_singleton _ _).symm
    · have hlast : i = front.length := by simp at h; omega
      subst hlast
      simpa using (List.perm_append_singleton last front).symm

/-- A field that is there is taken out, and the others are left in some order. -/
theorem takeField_of_get? {values : List (String × Value)} {name : String} {v : Value}
    (h : Bindings.get? values name = some v) :
    ∃ others, takeField values name = some (v, others) ∧ (name, v) :: others ~ values := by
  obtain ⟨f, hf, rfl⟩ := Option.map_eq_some_iff.1 h
  have hname : f.1 = name := by simpa using List.find?_some hf
  rw [List.find?_eq_getElem?_findIdx] at hf
  obtain ⟨hi, hget⟩ := List.getElem?_eq_some_iff.1 hf
  refine ⟨swapRemove values (values.findIdx (·.1 == name)), by rw [takeField, hf]; rfl, ?_⟩
  have hfield : (name, f.2) = f := Prod.ext hname.symm rfl
  rw [hfield, ← hget]
  exact swapRemove_perm hi

/-- A removed field and the others are the fields there were. -/
theorem perm_of_takeField {values others : List (String × Value)} {name : String} {v : Value}
    (h : takeField values name = some (v, others)) :
    ∃ key, (key, v) :: others ~ values := by
  obtain ⟨f, hf, he⟩ := Option.map_eq_some_iff.1 h
  cases he
  obtain ⟨hi, rfl⟩ := List.getElem?_eq_some_iff.1 hf
  exact ⟨_, swapRemove_perm hi⟩

end

/-! ### Conversion field by field -/

/-- Each field made of what is given for its name, up to the first failure. -/
def convertFields (value : String → Value) :
    (fields : List (String × Access × FieldType)) → Except ConvertError (FieldCarriers fields)
  | [] => .ok ()
  | (name, _, type) :: rest => do
    let a ← ofValue type (value name)
    return (a, ← convertFields value rest)

/-- Where different names have values, the order of the values is no matter. -/
theorem ofFields_eq (typeName : String) (value : String → Value) :
    {fields : List (String × Access × FieldType)} → (Bindings.names fields).Nodup →
    {values : List (String × Value)} → (Bindings.names values).Nodup →
    (∀ f ∈ fields, Bindings.get? values f.1 = some (value f.1)) →
    ofFields typeName fields values = convertFields value fields
  | [], _, _, _, _ => rfl
  | (name, access, type) :: rest, hfields, values, hvalues, h => by
    obtain ⟨hname, hrest⟩ := List.nodup_cons.1 hfields
    obtain ⟨hfirst, hothers⟩ := List.forall_mem_cons.1 h
    obtain ⟨others, htake, hperm⟩ := takeField_of_get? hfirst
    have hnodup : (Bindings.names others).Nodup :=
      (List.nodup_cons.1 ((hperm.map Prod.fst).nodup_iff.2 hvalues)).2
    have hget : ∀ f ∈ rest, Bindings.get? others f.1 = some (value f.1) := by
      intro f hf
      have hne : name ≠ f.1 := fun he => hname (List.mem_map.2 ⟨f, hf, he.symm⟩)
      rw [← hothers f hf, ← Bindings.get?_perm hperm hvalues, Bindings.get?_cons,
        if_neg (by simpa using hne)]
    rw [ofFields, htake, convertFields]
    dsimp only
    rw [ofFields_eq typeName value hrest hnodup hget]

/-! ### Types whose values come back -/

/-- An absent option is the value of a type. -/
def hasNone : FieldType → Bool
  | option _ | any => true
  | _ => false

/-- No option is one of an option or of any value, and the fields of each record have different
names. -/
inductive Faithful : FieldType → Prop where
  | str : Faithful str
  | int : Faithful int
  | int32 : Faithful int32
  | float : Faithful float
  | bool : Faithful bool
  | any : Faithful any
  | option {type : FieldType} (hnone : type.hasNone = false) (htype : Faithful type) :
    Faithful (option type)
  | list {type : FieldType} (htype : Faithful type) : Faithful (list type)
  | record {ns name : String} {params : List String} {fields : List (String × Access × FieldType)}
    (hnames : (Bindings.names fields).Nodup) (hfields : ∀ f ∈ fields, Faithful f.2.2) :
    Faithful (record ns name params fields)

theorem toValue_ne_none {type : FieldType} (h : type.hasNone = false) (x : type.Carrier) :
    toValue type x ≠ .none := by
  cases type with
  | option | any => cases h
  | _ => exact nofun

theorem ofValue_option {type : FieldType} {v : Value} (h : v ≠ .none) :
    ofValue (option type) v = (ofValue type v).map some := by
  cases v with
  | none => exact absurd rfl h
  | _ => rfl

theorem names_toFields : (fields : List (String × Access × FieldType)) →
    (r : FieldCarriers fields) → Bindings.names (toFields fields r) = Bindings.names fields
  | [], _ => rfl
  | (name, _, _) :: rest, (_, r) => congrArg (name :: ·) (names_toFields rest r)

/-- A typed record has a value for each of its fields. -/
theorem toFields_get? {fields : List (String × Access × FieldType)} (r : FieldCarriers fields) :
    ∀ f ∈ fields, Bindings.get? (toFields fields r) f.1 =
      some ((Bindings.get? (toFields fields r) f.1).getD .none) := by
  intro f hf
  have hmem : f.1 ∈ Bindings.names (toFields fields r) := by
    rw [names_toFields]
    exact List.mem_map_of_mem hf
  obtain ⟨v, hv⟩ := Option.isSome_iff_exists.1 ((Bindings.get?_isSome _ _).2 hmem)
  rw [hv]
  rfl

/-- Every value of a type is made again of the dynamic value that carries it. -/
def ComesBack (type : FieldType) : Prop :=
  ∀ x : type.Carrier, ofValue type (toValue type x) = .ok x

theorem comesBack_int32 : ComesBack int32 := fun n => by
  rw [toValue, ofValue, Int32.toInt32_toInt64, if_pos rfl]

theorem comesBack_option {type : FieldType} (hnone : type.hasNone = false)
    (h : type.ComesBack) : (option type).ComesBack := by
  intro x
  cases x with
  | none => rfl
  | some a =>
    show ofValue (option type) (toValue type a) = _
    rw [ofValue_option (toValue_ne_none hnone a), h a]
    rfl

theorem comesBack_list {type : FieldType} (h : type.ComesBack) : (list type).ComesBack := by
  intro xs
  rw [toValue, ofValue, mapM_eq_ok_iff, List.map_map]
  exact List.map_congr_left fun x _ => h x

theorem convertFields_toFields {value : String → Value} :
    (fields : List (String × Access × FieldType)) → (∀ f ∈ fields, f.2.2.ComesBack) →
    (r : FieldCarriers fields) → (∀ f ∈ toFields fields r, value f.1 = f.2) →
    convertFields value fields = .ok r
  | [], _, _, _ => rfl
  | (name, _, type) :: rest, hfields, (a, r), h => by
    obtain ⟨hfirst, hrest⟩ := List.forall_mem_cons.1 hfields
    obtain ⟨hvalue, hothers⟩ := List.forall_mem_cons.1 h
    rw [convertFields, hvalue, hfirst a, convertFields_toFields rest hrest r hothers]
    rfl

theorem comesBack_record {ns name : String} {params : List String}
    {fields : List (String × Access × FieldType)} (hnames : (Bindings.names fields).Nodup)
    (h : ∀ f ∈ fields, f.2.2.ComesBack) : (record ns name params fields).ComesBack := by
  intro r
  have hnodup : (Bindings.names (toFields fields r)).Nodup := by rwa [names_toFields]
  let value (name : String) := (Bindings.get? (toFields fields r) name).getD .none
  rw [toValue, ofValue, ofFields_eq _ value hnames hnodup (toFields_get? r)]
  refine convertFields_toFields fields h r fun f hf => ?_
  show (Bindings.get? (toFields fields r) f.1).getD .none = f.2
  rw [Bindings.get?_of_mem hnodup hf]
  rfl

/-- The values of a faithful type come back as they were, to the bits of their floats. -/
theorem ofValue_toValue {type : FieldType} (h : type.Faithful) (x : type.Carrier) :
    ofValue type (toValue type x) = .ok x := by
  suffices type.ComesBack from this x
  clear x
  induction h with
  | str | int | float | bool | any => exact fun _ => rfl
  | int32 => exact comesBack_int32
  | option hnone _ ih => exact comesBack_option hnone ih
  | list _ ih => exact comesBack_list ih
  | record hnames _ ih => exact comesBack_record hnames ih

/-- An order with lines of their own, an absent price and a note of any kind. -/
theorem ofValue_toValue_order :
    let line : FieldType := record "shop" "Line" [] [("count", .readWrite, int32),
      ("price", .readWrite, option float)]
    let order : FieldType := record "shop" "Order" [] [("lines", .readWrite, list line),
      ("note", .readOnly, any), ("best", .readWrite, option line), ("paid", .writeOnly, bool)]
    let sent : order.Carrier :=
      ([(2, none, ()), (-1, some (-0.5), ())], .none, some (3, some 0.5, ()), true, ())
    order.Faithful ∧ ofValue order (toValue order sent) = .ok sent := by
  intro line order sent
  have hline : line.Faithful := by
    refine .record (by decide) ?_
    simp only [List.forall_mem_cons]
    exact ⟨.int32, .option rfl .float, List.forall_mem_nil _⟩
  have horder : order.Faithful := by
    refine .record (by decide) ?_
    simp only [List.forall_mem_cons]
    exact ⟨.list hline, .any, .option rfl hline, .bool, List.forall_mem_nil _⟩
  exact ⟨horder, ofValue_toValue horder sent⟩

end StagedMapping.FieldType
