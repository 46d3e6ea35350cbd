import StagedMapping.Inference
import StagedMapping.Proofs.Classification
import StagedMapping.Proofs.DirectEvaluation
import StagedMapping.Proofs.Occurrence
import StagedMapping.Proofs.Outcomes

/-! Inferred types. A value conforms to a builtin type if it is of its kind, and to a type with
a descriptor if it is a record whose fields conform to the types of the properties
(`Conforms`). Every rule of the inference is right about the operation it is for
(`Conforms.join_left`, `operate_conforms`, `invoke_conforms`, `Conforms.member`), and so is
the inference about every expression that constructs nothing (`TypeScope.infer_conforms`). -/
namespace StagedMapping

/-! ### Conforming values -/

/-- The values of a builtin type: an integer is a float too, and the types that hold other
values hold anything. -/
def BuiltinType.accepts : BuiltinType → Value → Bool
  | int, .int _ => true
  | float, .int _ => true
  | float, .float _ => true
  | str, .str _ => true
  | bool, .bool _ => true
  | int, _ | float, _ | str, _ | bool, _ => false
  | any, _ | list, _ | option, _ => true

/-- A value of a type, as far as a pass describes the type. -/
inductive Conforms (c : Compilation) : TypeRef → Value → Prop
  | builtin {t : TypeRef} {b : BuiltinType} {v : Value} (hb : t.builtin? = some b)
      (hv : b.accepts v = true) : Conforms c t v
  | record {t : TypeRef} {d : Descriptor} {typeName : String} {fields : List (String × Value)}
      (hb : t.builtin? = none) (hd : c.descriptor? t = some d)
      (hp : ∀ p ∈ d.properties, ∀ v, Bindings.get? fields p.name = some v →
        Conforms c (p.type.substitute d.typeParams t.args) v) :
      Conforms c t (.record typeName fields)
  | unknown {t : TypeRef} {v : Value} (hb : t.builtin? = none) (hd : c.descriptor? t = none) :
      Conforms c t v

/-- No type of the empty namespace has the name of a builtin type. -/
def Compilation.SparesBuiltins (c : Compilation) : Prop :=
  ∀ name, (BuiltinType.ofSpelling? name).isSome → c.descriptorNamed? name = none

/-- No part of an expression is a construction. -/
def Source.Expr.ConstructsNothing (e : Source.Expr) : Prop :=
  ∀ span type args, ¬ (Source.Expr.construct span type args).Within e

/-- Each value of a scope conforms to the type that is known for its name. -/
def TypeScope.Describes (s : TypeScope) (scope : Scope) : Prop :=
  ∀ name t v, Bindings.get? s.locals name = some t → Bindings.get? scope name = some v →
    Conforms s.compilation t v

namespace TypeRef

@[simp] theorem builtin?_builtin (b : BuiltinType) : (builtin b).builtin? = some b :=
  BuiltinType.ofSpelling?_spelling b

mutual

theorem eq_of_same : (a b : TypeRef) → a.same b = true → a = b
  | mk m a as, mk n b bs, h => by
    simp only [same, Bool.and_eq_true, beq_iff_eq] at h
    rw [h.1.1, h.1.2, eq_of_sameArgs as bs h.2]

theorem eq_of_sameArgs : (as bs : List TypeRef) → sameArgs as bs = true → as = bs
  | [], [], _ => rfl
  | a :: as, b :: bs, h => by
    rw [sameArgs, Bool.and_eq_true] at h
    rw [eq_of_same a b h.1, eq_of_sameArgs as bs h.2]
  | [], _ :: _, h => by cases h
  | _ :: _, [], h => by cases h

end

end TypeRef

/-- A builtin type has no descriptor. -/
theorem Compilation.SparesBuiltins.descriptor? {c : Compilation} (h : c.SparesBuiltins)
    {t : TypeRef} {b : BuiltinType} (hb : t.builtin? = some b) : c.descriptor? t = none := by
  unfold TypeRef.builtin? at hb
  split at hb
  case isTrue empty =>
    have name : t.qualified = t.name := by rw [TypeRef.qualified, Name.qualify, empty]; rfl
    rw [Compilation.descriptor?, name]
    exact h _ (by simp [hb])
  case isFalse => cases hb

namespace Conforms
variable {c : Compilation} {t : TypeRef} {v : Value}

theorem any (v : Value) : Conforms c .any v := .builtin (TypeRef.builtin?_builtin .any) rfl

theorem of_builtin {b : BuiltinType} (h : b.accepts v = true) : Conforms c (.builtin b) v :=
  .builtin (TypeRef.builtin?_builtin b) h

theorem accepts (h : Conforms c t v) {b : BuiltinType} (hb : t.builtin? = some b) :
    b.accepts v = true := by
  cases h with
  | builtin hb' hv =>
    cases hb.symm.trans hb'
    exact hv
  | record hb' | unknown hb' => cases hb.symm.trans hb'

/-- An integer conforms to a type as any other does, and a float as well. -/
theorem of_int {m : Int64} (h : Conforms c t (.int m)) (n : Int64) : Conforms c t (.int n) := by
  cases h with
  | @builtin _ b _ hb hv => exact .builtin hb (by cases b <;> first | rfl | cases hv)
  | unknown hb hd => exact .unknown hb hd

theorem of_float {x : Float} (h : Conforms c t (.float x)) (y : Float) :
    Conforms c t (.float y) := by
  cases h with
  | @builtin _ b _ hb hv => exact .builtin hb (by cases b <;> first | rfl | cases hv)
  | unknown hb hd => exact .unknown hb hd

/-- A property that a record has conforms to the type of the property. -/
theorem member (hc : c.SparesBuiltins) (h : Conforms c t v) {name : String} {type : TypeRef}
    (hp : c.propertyType? t name = some type) {w : Value} (hw : v.member name = .ok w) :
    Conforms c type w := by
  obtain ⟨d, hd, hp⟩ := Option.bind_eq_some_iff.1 hp
  obtain ⟨p, hfound, htype⟩ := Option.bind_eq_some_iff.1 hp
  cases htype
  cases h with
  | builtin hb => cases (hc.descriptor? hb).symm.trans hd
  | unknown _ hd' => cases hd'.symm.trans hd
  | @record _ d' typeName fields _ hd' hfields =>
    cases hd.symm.trans hd'
    have named : p.name = name := by simpa using List.find?_some hfound
    have stored : Bindings.get? fields p.name = some w := by
      rw [named]
      rw [Value.member] at hw
      cases hget : Bindings.get? fields name with
      | some found =>
        rw [hget] at hw
        cases hw
        rfl
      | none =>
        rw [hget] at hw
        cases hw
    exact hfields p (List.mem_of_find?_eq_some hfound) w stored

/-! ### Joins -/

theorem numeric_accepts {b : BuiltinType} (hb : b.isNumeric = true) (hv : b.accepts v = true) :
    BuiltinType.float.accepts v = true := by
  cases b <;> cases hb <;> cases v <;> first | rfl | cases hv

theorem of_numeric (h : Conforms c t v) (ht : t.isNumeric = true) :
    Conforms c (.builtin .float) v := by
  obtain ⟨b, hb, numeric⟩ := (Option.any_eq_true _ _).1 ht
  exact of_builtin (numeric_accepts numeric (h.accepts hb))

variable {a b : TypeRef}

theorem join_left (h : Conforms c a v) : Conforms c (TypeScope.join a b) v := by
  unfold TypeScope.join
  split
  · exact h
  · split
    case isTrue numeric => exact h.of_numeric (Bool.and_eq_true_iff.1 numeric).1
    case isFalse => exact any v

theorem join_right (h : Conforms c b v) : Conforms c (TypeScope.join a b) v := by
  unfold TypeScope.join
  split
  case isTrue same =>
    rw [TypeRef.eq_of_same a b same]
    exact h
  · split
    case isTrue numeric => exact h.of_numeric (Bool.and_eq_true_iff.1 numeric).2
    case isFalse => exact any v

end Conforms

/-! ### Operations -/

section
variable {c : Compilation} {t : TypeRef} {v w : Value}

theorem integer_eq_ok {operation : String} {n : Option Int64}
    (h : Value.integer operation n = .ok w) : ∃ m, w = .int m := by
  cases n with
  | some m => exact ⟨m, (Except.ok.inj h).symm⟩
  | none => cases h

theorem division_eq_ok {symbol : String} {f : Int64 → Int64 → Option Int64} {m n : Int64}
    (h : Value.division symbol f m n = .ok w) : ∃ k, w = .int k := by
  unfold Value.division at h
  split at h
  · cases h
  · exact integer_eq_ok h

theorem negate_conforms (h : Conforms c t v) (hw : v.negate = .ok w) : Conforms c t w := by
  cases v with
  | int n =>
    obtain ⟨m, rfl⟩ := integer_eq_ok hw
    exact h.of_int m
  | float x =>
    cases hw
    exact h.of_float _
  | _ => cases hw

theorem absolute_conforms (h : Conforms c t v) (hw : v.absolute = .ok w) : Conforms c t w := by
  cases v with
  | int n =>
    obtain ⟨m, rfl⟩ := integer_eq_ok hw
    exact h.of_int m
  | float x =>
    cases hw
    exact h.of_float _
  | _ => cases hw

theorem compare_eq_ok {symbol : String} {strings : String → String → Bool}
    {floats : Float → Float → Bool} {x y : Value}
    (h : Value.compare symbol strings floats x y = .ok w) : ∃ r, w = .bool r := by
  unfold Value.compare at h
  split at h
  · exact ⟨_, (Except.ok.inj h).symm⟩
  · split at h
    · exact ⟨_, (Except.ok.inj h).symm⟩
    · cases h

/-- Arithmetic on values of a numeric type gives values of the type. -/
theorem arithmetic_accepts {symbol : String} {ints : Int64 → Int64 → Eval Value}
    {floats : Float → Float → Float} (hints : ∀ m n, ints m n = .ok w → ∃ k, w = .int k)
    {b : BuiltinType} (hb : b.isNumeric = true) {x y : Value} (hx : b.accepts x = true)
    (hy : b.accepts y = true) (h : Value.arithmetic symbol ints floats x y = .ok w) :
    b.accepts w = true := by
  cases b <;> cases hb <;> cases x <;> cases hx <;> cases y <;> cases hy
  case int.refl.int.refl.int.refl | float.refl.int.refl.int.refl =>
    obtain ⟨k, rfl⟩ := hints _ _ h
    rfl
  all_goals
    cases h
    rfl

theorem operate_numeric {op : BinaryOp} (hop : op.isBoolean = false) {b : BuiltinType}
    (hb : b.isNumeric = true) {x y : Value} (hx : b.accepts x = true) (hy : b.accepts y = true)
    (h : x.operate op y = .ok w) : b.accepts w = true := by
  cases op <;> cases hop
  case add =>
    have number : x.operate .add y = x.arithmetic "+"
        (fun m n => Value.integer "+" (Number.checked (m.toInt + n.toInt))) (· + ·) y := by
      cases x <;> first | rfl | cases b <;> cases hb <;> cases hx
    exact arithmetic_accepts (fun _ _ => integer_eq_ok) hb hx hy (number ▸ h)
  case sub | mul => exact arithmetic_accepts (fun _ _ => integer_eq_ok) hb hx hy h
  case div | mod => exact arithmetic_accepts (fun _ _ => division_eq_ok) hb hx hy h

theorem str_of_accepts {v : Value} (h : BuiltinType.str.accepts v = true) : ∃ s, v = .str s := by
  cases v <;> first | exact ⟨_, rfl⟩ | cases h

/-- A sum with a string is a string. -/
theorem operate_str {x y : Value}
    (hxy : BuiltinType.str.accepts x = true ∨ BuiltinType.str.accepts y = true)
    (h : x.operate .add y = .ok w) : ∃ s, w = .str s := by
  rcases hxy with hx | hy
  · obtain ⟨s, rfl⟩ := str_of_accepts hx
    cases y <;> first | exact ⟨_, (Except.ok.inj h).symm⟩ | cases h
  · obtain ⟨s, rfl⟩ := str_of_accepts hy
    cases x <;> first | exact ⟨_, (Except.ok.inj h).symm⟩ | cases h

/-- The type of an arithmetic operation is that of its values. -/
theorem operate_conforms {op : BinaryOp} (hop : op.isBoolean = false) {a b : TypeRef}
    {x y : Value} (hx : Conforms c a x) (hy : Conforms c b y) (h : x.operate op y = .ok w) :
    Conforms c (TypeScope.ofBinary op a b) w := by
  rw [TypeScope.ofBinary, hop, if_neg Bool.false_ne_true]
  split
  case isTrue str =>
    obtain ⟨rfl, str⟩ := str
    have accepted := (Bool.or_eq_true_iff.1 str).imp (fun ha => hx.accepts (beq_iff_eq.1 ha))
      fun hb => hy.accepts (beq_iff_eq.1 hb)
    obtain ⟨s, rfl⟩ := operate_str accepted h
    exact .of_builtin rfl
  case isFalse =>
    split
    case isFalse => exact .any w
    case isTrue numeric =>
      obtain ⟨ha, hb⟩ := Bool.and_eq_true_iff.1 numeric
      unfold TypeScope.join
      split
      case isTrue same =>
        cases TypeRef.eq_of_same a b same
        obtain ⟨k, hk, number⟩ := (Option.any_eq_true _ _).1 ha
        exact .builtin hk (operate_numeric hop number (hx.accepts hk) (hy.accepts hk) h)
      case isFalse =>
        have float {t : TypeRef} {v : Value} (h : Conforms c t v) (ht : t.isNumeric = true) :=
          (h.of_numeric ht).accepts (TypeRef.builtin?_builtin .float)
        exact .of_builtin (operate_numeric hop rfl (float hx ha) (float hy hb) h)

theorem onStrings_conforms {name : String} {b : Builtin} (hb : Builtin.ofSpelling? name = some b)
    (str : b ≠ .toStr) (abs : b ≠ .abs) (s : String) {args : List String}
    (hargs : args.length = b.arity) :
    Conforms c (TypeScope.ofMethod name t) (Value.onStrings b s args) := by
  rw [TypeScope.ofMethod, hb]
  cases b
  case toStr => exact absurd rfl str
  case abs => exact absurd rfl abs
  case upper | lower | trim | len => exact .of_builtin rfl
  case contains | startsWith | endsWith =>
    match args, hargs with
    | [_], _ => exact .of_builtin rfl
  case replace =>
    match args, hargs with
    | [_, _], _ => exact .of_builtin rfl

/-- The type of a method is that of its results. -/
theorem invoke_conforms {name : String} {b : Builtin} (hb : Builtin.ofSpelling? name = some b)
    {args : List Value} (h : Conforms c t v) (hw : v.invoke b args = .ok w) :
    Conforms c (TypeScope.ofMethod name t) w := by
  by_cases arity : args.length = b.arity
  · simp only [Value.invoke, arity, ne_eq, not_true_eq_false, if_false] at hw
    split at hw
    · cases hw
      rw [TypeScope.ofMethod, hb]
      exact .of_builtin rfl
    · rw [TypeScope.ofMethod, hb]
      exact absolute_conforms h hw
    case h_3 str abs =>
      obtain ⟨s, -, hw⟩ := bind_eq_ok.1 hw
      obtain ⟨strings, hstrings, hw⟩ := bind_eq_ok.1 hw
      have length := congrArg List.length (mapM_eq_ok_iff.1 hstrings)
      rw [List.length_map, List.length_map, arity] at length
      cases hw
      exact onStrings_conforms hb str abs s length.symm
  · simp only [Value.invoke, ne_eq, arity, not_false_eq_true, if_true] at hw
    cases hw

end

/-! ### Expressions -/

namespace Source.Expr
variable {types : TypeExpr → TypeRef} {scope : Scope}

/-- A comparison or a connective that has a value is true or false. -/
theorem eval_boolean {span : Span} {lhs rhs : Expr} {op : BinaryOp} (hop : op.isBoolean = true)
    {w : Value} (h : (Expr.binary span lhs op rhs).eval types scope = .ok w) :
    ∃ r, w = .bool r := by
  cases op <;> cases hop
  case and =>
    rw [eval] at h
    obtain ⟨p, -, h⟩ := bind_eq_ok.1 h
    obtain ⟨test, -, h⟩ := bind_eq_ok.1 h
    cases test with
    | true =>
      obtain ⟨q, -, h⟩ := bind_eq_ok.1 h
      obtain ⟨r, -, h⟩ := bind_eq_ok.1 h
      exact ⟨r, (Except.ok.inj h).symm⟩
    | false => exact ⟨false, (Except.ok.inj h).symm⟩
  case or =>
    rw [eval] at h
    obtain ⟨p, -, h⟩ := bind_eq_ok.1 h
    obtain ⟨test, -, h⟩ := bind_eq_ok.1 h
    cases test with
    | true => exact ⟨true, (Except.ok.inj h).symm⟩
    | false =>
      obtain ⟨q, -, h⟩ := bind_eq_ok.1 h
      obtain ⟨r, -, h⟩ := bind_eq_ok.1 h
      exact ⟨r, (Except.ok.inj h).symm⟩
  all_goals
    obtain ⟨x, -, h⟩ := bind_eq_ok.1 h
    obtain ⟨y, -, h⟩ := bind_eq_ok.1 h
  case eq | notEq => exact ⟨_, (Except.ok.inj h).symm⟩
  case lt | ltEq | gt | gtEq => exact compare_eq_ok h

theorem eval_arithmetic {span : Span} {lhs rhs : Expr} {op : BinaryOp}
    (hop : op.isBoolean = false) : (Expr.binary span lhs op rhs).eval types scope =
      lhs.eval types scope >>= fun x => rhs.eval types scope >>= fun y => x.operate op y := by
  cases op <;> cases hop <;> rfl

end Source.Expr

namespace TypeScope
variable {s : TypeScope} {types : Source.TypeExpr → TypeRef} {scope : Scope}

/-- The inference is right about every value: by induction over the expression, with the
rule of each form. -/
theorem eval_conforms (hc : s.compilation.SparesBuiltins) (hs : s.Describes scope) :
    (e : Source.Expr) → e.ConstructsNothing → ∀ {v}, e.eval types scope = .ok v →
      Conforms s.compilation (s.infer e) v
  | .ident _ name, _, v, h => by
    rw [Source.Expr.eval] at h
    rw [infer]
    cases hv : Bindings.get? scope name with
    | none =>
      rw [hv] at h
      cases h
    | some w =>
      rw [hv] at h
      cases h
      cases ht : Bindings.get? s.locals name with
      | some t => exact hs name t v ht hv
      | none => exact .any v
  | .literal _ l, _, v, h => by
    cases h
    cases l <;> exact .of_builtin rfl
  | .field _ base name, hn, v, h => by
    rw [Source.Expr.eval] at h
    obtain ⟨w, hw, h⟩ := bind_eq_ok.1 h
    have hbase := eval_conforms hc hs base (fun _ _ _ hp => hn _ _ _ (.base hp)) hw
    rw [infer]
    cases htype : s.compilation.propertyType? (s.infer base) name with
    | some type => exact hbase.member hc htype h
    | none => exact .any v
  | .method _ receiver name args, hn, v, h => by
    rw [Source.Expr.eval] at h
    cases hb : Builtin.ofSpelling? name with
    | none =>
      rw [hb] at h
      cases h
    | some b =>
      rw [hb] at h
      obtain ⟨w, hw, h⟩ := bind_eq_ok.1 h
      obtain ⟨values, -, h⟩ := bind_eq_ok.1 h
      rw [infer]
      exact invoke_conforms hb
        (eval_conforms hc hs receiver (fun _ _ _ hp => hn _ _ _ (.receiver hp)) hw) h
  | .call .., _, _, h => by cases h
  | .choice _ value condition otherwise, hn, v, h => by
    rw [Source.Expr.eval] at h
    obtain ⟨p, -, h⟩ := bind_eq_ok.1 h
    obtain ⟨test, -, h⟩ := bind_eq_ok.1 h
    rw [infer]
    cases test with
    | true =>
      exact .join_left (eval_conforms hc hs value (fun _ _ _ hp => hn _ _ _ (.value hp)) h)
    | false =>
      exact .join_right (eval_conforms hc hs otherwise (fun _ _ _ hp => hn _ _ _ (.otherwise hp)) h)
  | .binary _ lhs op rhs, hn, v, h => by
    rw [infer]
    cases hop : op.isBoolean with
    | true =>
      obtain ⟨r, rfl⟩ := Source.Expr.eval_boolean hop h
      rw [ofBinary, if_pos hop]
      exact .of_builtin rfl
    | false =>
      rw [Source.Expr.eval_arithmetic hop] at h
      obtain ⟨x, hx, h⟩ := bind_eq_ok.1 h
      obtain ⟨y, hy, h⟩ := bind_eq_ok.1 h
      exact operate_conforms hop
        (eval_conforms hc hs lhs (fun _ _ _ hp => hn _ _ _ (.left hp)) hx)
        (eval_conforms hc hs rhs (fun _ _ _ hp => hn _ _ _ (.right hp)) hy) h
  | .unary _ .not operand, _, v, h => by
    rw [Source.Expr.eval] at h
    obtain ⟨p, -, h⟩ := bind_eq_ok.1 h
    obtain ⟨r, -, h⟩ := bind_eq_ok.1 h
    cases h
    exact .of_builtin rfl
  | .unary _ .neg operand, hn, v, h => by
    rw [Source.Expr.eval] at h
    obtain ⟨w, hw, h⟩ := bind_eq_ok.1 h
    rw [infer]
    exact negate_conforms
      (eval_conforms hc hs operand (fun _ _ _ hp => hn _ _ _ (.operand hp)) hw) h
  | .construct span type args, hn, _, _ => absurd .self (hn span type args)
  | .paren _ inner, hn, v, h => by
    rw [Source.Expr.eval] at h
    rw [infer]
    exact eval_conforms hc hs inner (fun _ _ _ hp => hn _ _ _ (.inner hp)) h

/-- In a pass without a type in the empty namespace that has the name of a builtin type, the
value of a lowered expression that constructs nothing conforms to the type inferred for the
expression, wherever the values in scope conform to the types known for their names. -/
theorem infer_conforms (hc : s.compilation.SparesBuiltins) (l : Lowering) (bound : List String)
    {e : Source.Expr} (hn : e.ConstructsNothing) (hl : (l.expr bound e).notes = [])
    (hs : s.Describes scope) {v : Value} (hv : (l.expr bound e).value.eval scope = .ok v) :
    Conforms s.compilation (s.infer e) v :=
  eval_conforms hc hs e hn (l.expr_eval bound scope e hl ▸ hv)

end TypeScope

namespace Sample

theorem compilation_sparesBuiltins : compilation.SparesBuiltins := by
  intro name hname
  cases h : compilation.descriptorNamed? name with
  | none => rfl
  | some d =>
    have known := List.mem_map_of_mem (f := Prod.fst) (Bindings.mem_of_get? h)
    have types : compilation.types.map Prod.fst = ["app::Target", "app::User"] := rfl
    rw [types] at known
    rcases List.mem_cons.1 known with rfl | known
    · cases hname
    · cases List.mem_singleton.1 known
      cases hname

def users : TypeScope := ⟨compilation, 0, [], [("u", user.toRef)]⟩

def someUser : Scope :=
  [("u", .record "app::User" [("name", .str "n"), ("age", .int 3)]), ("adult", .bool true)]

theorem users_describes : users.Describes someUser := by
  intro name t v ht hv
  rw [users, Bindings.get?_cons] at ht
  split at ht
  case isTrue same =>
    cases ht
    obtain rfl : "u" = name := beq_iff_eq.1 same
    cases hv
    refine .record rfl rfl fun p hp v hv => ?_
    rcases List.mem_cons.1 hp with rfl | hp
    · cases hv
      exact .of_builtin rfl
    · cases List.mem_singleton.1 hp
      cases hv
      exact .of_builtin rfl
  case isFalse => cases ht

/-- The age of an adult, or else a half. -/
def ageOrHalf : Source.Expr :=
  .choice place (field "u" "age") (name "adult") (.literal place (.float 0.5))

theorem ageOrHalf_constructsNothing : ageOrHalf.ConstructsNothing := by
  intro span type args h
  cases h with
  | value h =>
    cases h with
    | base h => cases h
  | condition h | otherwise h => cases h

end Sample

namespace TypeScope

theorem infer_conforms_sample : Sample.users.infer Sample.ageOrHalf = .builtin .float ∧
    Conforms Sample.compilation (Sample.users.infer Sample.ageOrHalf) (.int 3) :=
  ⟨rfl, infer_conforms Sample.compilation_sparesBuiltins
    ⟨Sample.compilation, ⟨"app::Target", "map", 0⟩, []⟩ ["u", "adult"]
    Sample.ageOrHalf_constructsNothing rfl Sample.users_describes rfl⟩

end TypeScope
end StagedMapping
