import StagedMapping.Plan
import StagedMapping.Proofs.Outcomes

/-! Arguments that are left out. A parameter without an argument takes its default, in the
scope of the parameters before it, which may have been left out as well
(`FactoryPlan.DefaultsTo`). Passing that value instead leaves the same scope before every
later parameter (`FactoryPlan.Fills.scopeBefore`), so the binding is the same. A binding
fails at the first parameter that has no value (`FactoryPlan.scopeBefore_error`). -/
namespace StagedMapping

theorem Args.lt_of_get? (args : Args) {i : Nat} {v : Value} (h : args.get? i = some v) :
    i < args.length := by
  rcases Nat.lt_or_ge i args.length with hi | hi
  · exact hi
  · rw [Args.get?, List.getElem?_eq_none hi] at h
    cases h

/-- A run fails as a mapper where it fails. -/
theorem Outcome.lift_toExcept_eq_error {o : Outcome} {e : MapError} :
    o.toExcept.lift = .error e ↔ ∃ r, o.failure = some r ∧ .eval r = e := by
  obtain ⟨scope, failure⟩ := o
  cases failure with
  | none => exact ⟨nofun, fun ⟨_, hr, _⟩ => nomatch hr⟩
  | some r => exact ⟨fun h => ⟨r, rfl, Except.error.inj h⟩, fun ⟨_, hr, he⟩ => by
      cases hr
      exact congrArg _ he⟩

namespace FactoryPlan
variable (f : FactoryPlan)

/-! ### Parameter by parameter -/

section
variable {scope : Scope} {p : ParameterPlan}

theorem argument_of_default {t : Tree} (h : p.default = some t) :
    f.argument scope p none = (t.eval scope).lift := by
  obtain ⟨name, type, default⟩ := p
  cases h
  rfl

theorem argument_of_required (h : p.default = none) :
    f.argument scope p none = .error (.missingArgument p.name f.declaration) := by
  obtain ⟨name, type, default⟩ := p
  cases h
  rfl

theorem argument_eq_missing {passed : Option Value} {name declaration : String} :
    f.argument scope p passed = .error (.missingArgument name declaration) ↔
      passed = none ∧ p.default = none ∧ p.name = name ∧ f.declaration = declaration := by
  cases passed with
  | some v => exact ⟨nofun, nofun⟩
  | none =>
    cases hd : p.default with
    | none => simp [argument_of_required f hd]
    | some t =>
      rw [argument_of_default f hd]
      cases t.eval scope with
      | ok v => exact ⟨nofun, nofun⟩
      | error e => exact ⟨nofun, nofun⟩

theorem argument_ne_tooMany {passed : Option Value} {declaration : String}
    {expected found : Nat} :
    f.argument scope p passed ≠ .error (.tooManyArguments declaration expected found) := by
  cases passed with
  | some v => exact nofun
  | none =>
    cases hd : p.default with
    | none => rw [argument_of_required f hd]; exact nofun
    | some t =>
      rw [argument_of_default f hd]
      cases t.eval scope <;> exact nofun

end

theorem bindParameters_append (ps qs : List ParameterPlan) (scope : Scope) (args : Args) :
    f.bindParameters scope (ps ++ qs) args = f.bindParameters scope ps args >>= fun after =>
      f.bindParameters after qs (args.drop ps.length) := by
  induction ps generalizing scope args with
  | nil => rfl
  | cons p rest ih =>
    rw [List.cons_append, bindParameters, bindParameters, bind_assoc, List.length_cons,
      ← List.drop_tail]
    exact congrArg _ (funext fun v => ih _ _)

/-- The scope in which the parameter at a position gets its value. -/
def scopeBefore (args : Args) (i : Nat) : Except MapError Scope :=
  f.bindParameters [] (f.parameters.take i) args

theorem scopeBefore_succ {i : Nat} {p : ParameterPlan} (hp : f.parameters[i]? = some p)
    (args : Args) : f.scopeBefore args (i + 1) = f.scopeBefore args i >>= fun scope => do
      let v ← f.argument scope p (args.get? i)
      return Bindings.set scope p.name (v.coerce p.type) := by
  have hlength : (f.parameters.take i).length = i :=
    List.length_take_of_le (Nat.le_of_lt (List.getElem?_eq_some_iff.1 hp).1)
  rw [scopeBefore, List.take_add_one, hp, Option.toList_some, bindParameters_append, hlength]
  simp only [bindParameters, List.head?_drop]
  rfl

/-- The default of a parameter has a value where it is evaluated. -/
def DefaultsTo (args : Args) (i : Nat) (v : Value) : Prop :=
  ∃ p t scope, f.parameters[i]? = some p ∧ p.default = some t ∧
    f.scopeBefore args i = .ok scope ∧ t.eval scope = .ok v

/-- Every parameter at a position before is passed or has a default with a value. -/
def Settles (args : Args) (i : Nat) : Prop :=
  ∀ j < i, args.get? j = none → ∃ v, f.DefaultsTo args j v

variable {f}

theorem DefaultsTo.argument {args : Args} {i : Nat} {v : Value} (h : f.DefaultsTo args i v)
    {p : ParameterPlan} (hp : f.parameters[i]? = some p) {scope : Scope}
    (hs : f.scopeBefore args i = .ok scope) : f.argument scope p none = .ok v := by
  obtain ⟨q, t, after, hq, ht, hafter, hv⟩ := h
  rw [hp] at hq
  rw [hs] at hafter
  cases hq
  cases hafter
  rw [argument_of_default f ht]
  exact Eval.lift_eq_ok.2 hv

theorem argument_eq_ok {args : Args} {i : Nat} {p : ParameterPlan}
    (hp : f.parameters[i]? = some p) {scope : Scope} (hs : f.scopeBefore args i = .ok scope) :
    (∃ v, f.argument scope p (args.get? i) = .ok v) ↔
      (args.get? i = none → ∃ v, f.DefaultsTo args i v) := by
  cases args.get? i with
  | some v => exact ⟨fun _ => nofun, fun _ => ⟨v, rfl⟩⟩
  | none =>
    refine ⟨fun ⟨v, hv⟩ _ => ?_, fun h => ?_⟩
    · cases ht : p.default with
      | none => rw [argument_of_required f ht] at hv; cases hv
      | some t =>
        rw [argument_of_default f ht] at hv
        exact ⟨v, p, t, scope, hp, ht, hs, Eval.lift_eq_ok.1 hv⟩
    · obtain ⟨v, hv⟩ := h rfl
      exact ⟨v, hv.argument hp hs⟩

/-! ### Values for what was left out -/

/-- Arguments with more values than others: what is passed stays, and what was left out is
left out still or has the value of its default. -/
structure Fills (f : FactoryPlan) (args full : Args) : Prop where
  within : args.length ≤ f.parameters.length
  fits : full.length ≤ f.parameters.length
  kept : ∀ i v, args.get? i = some v → full.get? i = some v
  defaulted : ∀ i v, args.get? i = none → full.get? i = some v → f.DefaultsTo args i v

/-- Before each parameter the scope is the same: by induction on its position, since a
default reads the scope that is the same so far. -/
theorem Fills.scopeBefore {args full : Args} (h : f.Fills args full) {i : Nat}
    (hi : i ≤ f.parameters.length) : f.scopeBefore full i = f.scopeBefore args i := by
  induction i with
  | zero => rfl
  | succ i ih =>
    have hp := List.getElem?_eq_getElem (show i < f.parameters.length from hi)
    rw [scopeBefore_succ f hp, scopeBefore_succ f hp, ih (Nat.le_of_succ_le hi)]
    cases hs : f.scopeBefore args i with
    | error e => rfl
    | ok scope =>
      have hvalue : f.argument scope f.parameters[i] (full.get? i) =
          f.argument scope f.parameters[i] (args.get? i) := by
        cases hargs : args.get? i with
        | some v => rw [h.kept i v hargs]
        | none =>
          cases hfull : full.get? i with
          | none => rfl
          | some v => exact ((h.defaulted i v hargs hfull).argument hp hs).symm
      show (f.argument scope _ (full.get? i) >>= _) = f.argument scope _ (args.get? i) >>= _
      rw [hvalue]

/-- Arguments with a value for every parameter. -/
def completed (f : FactoryPlan) (args : Args) (values : Nat → Value) : Args :=
  (List.range f.parameters.length).map fun i => some ((args.get? i).getD (values i))

theorem completed_get? (args : Args) (values : Nat → Value) (i : Nat) :
    (f.completed args values).get? i =
      if i < f.parameters.length then some ((args.get? i).getD (values i)) else none := by
  rw [completed, Args.get?, List.getElem?_map]
  split
  case isTrue hi => rw [List.getElem?_range hi]; rfl
  case isFalse hi => rw [List.getElem?_eq_none (by simpa using hi)]; rfl

theorem fills_completed {args : Args} (hlength : args.length ≤ f.parameters.length)
    {values : Nat → Value}
    (h : ∀ i < f.parameters.length, args.get? i = none → f.DefaultsTo args i (values i)) :
    f.Fills args (f.completed args values) where
  within := hlength
  fits := by simp [completed]
  kept i v hv := by
    rw [completed_get?, if_pos (Nat.lt_of_lt_of_le (args.lt_of_get? hv) hlength), hv,
      Option.getD_some]
  defaulted i v hargs hfull := by
    rw [completed_get?] at hfull
    split at hfull
    case isTrue hi =>
      rw [hargs, Option.getD_none] at hfull
      exact Option.some.inj hfull ▸ h i hi hargs
    case isFalse => cases hfull

/-! ### Failures -/

/-- A failure is that of the first parameter without a value. -/
theorem scopeBefore_error {args : Args} {i : Nat} (hi : i ≤ f.parameters.length) {e : MapError} :
    f.scopeBefore args i = .error e ↔ ∃ j < i, ∃ p scope, f.parameters[j]? = some p ∧
      f.scopeBefore args j = .ok scope ∧ f.argument scope p (args.get? j) = .error e := by
  induction i with
  | zero => exact ⟨nofun, fun ⟨_, hj, _⟩ => nomatch hj⟩
  | succ i ih =>
    have hp := List.getElem?_eq_getElem (show i < f.parameters.length from hi)
    have hlast : (∃ j < i + 1, ∃ p scope, f.parameters[j]? = some p ∧
          f.scopeBefore args j = .ok scope ∧ f.argument scope p (args.get? j) = .error e) ↔
        f.scopeBefore args i = .error e ∨ ∃ scope, f.scopeBefore args i = .ok scope ∧
          f.argument scope f.parameters[i] (args.get? i) = .error e := by
      rw [ih (Nat.le_of_succ_le hi), Nat.exists_lt_succ_right]
      simp only [hp, Option.some.injEq, exists_and_left, exists_eq_left']
    rw [hlast, scopeBefore_succ f hp]
    simp only [bind_eq_error, pure, Except.pure, reduceCtorEq, and_false, exists_false, or_false]

theorem scopeBefore_eq_ok {args : Args} {i : Nat} (hi : i ≤ f.parameters.length) :
    (∃ scope, f.scopeBefore args i = .ok scope) ↔ f.Settles args i := by
  induction i with
  | zero => exact ⟨fun _ _ hj => (nomatch hj), fun _ => ⟨[], rfl⟩⟩
  | succ i ih =>
    have hp := List.getElem?_eq_getElem (show i < f.parameters.length from hi)
    have hlast : f.Settles args (i + 1) ↔
        f.Settles args i ∧ (args.get? i = none → ∃ v, f.DefaultsTo args i v) :=
      Nat.forall_lt_succ_right
    rw [hlast, ← ih (Nat.le_of_succ_le hi), scopeBefore_succ f hp]
    simp only [bind_eq_ok, pure, Except.pure, Except.ok.injEq]
    constructor
    · rintro ⟨_, scope, hs, v, hv, -⟩
      exact ⟨⟨scope, hs⟩, (argument_eq_ok hp hs).1 ⟨v, hv⟩⟩
    · rintro ⟨⟨scope, hs⟩, hd⟩
      obtain ⟨v, hv⟩ := (argument_eq_ok hp hs).2 hd
      exact ⟨_, scope, hs, v, hv, rfl⟩

/-! ### Bindings -/

/-- A binding without too many arguments: the parameters, then the residual statements. -/
theorem bind_eq {args : Args} (h : args.length ≤ f.parameters.length) :
    f.bind args = f.scopeBefore args f.parameters.length >>= fun scope =>
      (Residual.execAll scope f.residuals).toExcept.lift >>= fun after =>
        .ok (f.boundParams after :: f.varsStage.toList ++ [f.finalStage]) := by
  rw [bind, boundScope, if_neg (Nat.not_lt.2 h), scopeBefore, List.take_length]
  exact bind_assoc ..

theorem bind_error {args : Args} (h : args.length ≤ f.parameters.length) {e : MapError} :
    f.bind args = .error e ↔ f.scopeBefore args f.parameters.length = .error e ∨
      ∃ scope, f.scopeBefore args f.parameters.length = .ok scope ∧
        ∃ r, (Residual.execAll scope f.residuals).failure = some r ∧ .eval r = e := by
  simp only [bind_eq h, bind_eq_error, Outcome.lift_toExcept_eq_error, reduceCtorEq, and_false,
    exists_false, or_false]

theorem Fills.bind_eq {args full : Args} (h : f.Fills args full) : f.bind full = f.bind args := by
  rw [FactoryPlan.bind_eq h.fits, FactoryPlan.bind_eq h.within, h.scopeBefore (Nat.le_refl _)]

theorem bind_eq_missing {args : Args} (h : args.length ≤ f.parameters.length)
    {name declaration : String} :
    f.bind args = .error (.missingArgument name declaration) ↔ declaration = f.declaration ∧
      ∃ i p, f.parameters[i]? = some p ∧ p.name = name ∧ args.get? i = none ∧
        p.default = none ∧ f.Settles args i := by
  rw [bind_error h]
  constructor
  · rintro (hs | ⟨scope, -, r, -, hr⟩)
    · obtain ⟨i, hi, p, scope, hp, hscope, hv⟩ := (scopeBefore_error (Nat.le_refl _)).1 hs
      obtain ⟨hargs, hd, hn, hf⟩ := (argument_eq_missing f).1 hv
      exact ⟨hf.symm, i, p, hp, hn, hargs, hd,
        (scopeBefore_eq_ok (Nat.le_of_lt hi)).1 ⟨scope, hscope⟩⟩
    · cases hr
  · rintro ⟨hf, i, p, hp, hn, hargs, hd, hsettled⟩
    have hi := (List.getElem?_eq_some_iff.1 hp).1
    obtain ⟨scope, hscope⟩ := (scopeBefore_eq_ok (Nat.le_of_lt hi)).2 hsettled
    exact .inl ((scopeBefore_error (Nat.le_refl _)).2 ⟨i, hi, p, scope, hp, hscope,
      (argument_eq_missing f).2 ⟨hargs, hd, hn, hf.symm⟩⟩)

theorem bind_eq_tooMany {args : Args} {declaration : String} {expected found : Nat} :
    f.bind args = .error (.tooManyArguments declaration expected found) ↔
      f.parameters.length < args.length ∧ f.declaration = declaration ∧
      f.parameters.length = expected ∧ args.length = found := by
  rcases Nat.lt_or_ge f.parameters.length args.length with h | h
  · rw [bind, boundScope, if_pos h]
    simp [h, Bind.bind, Except.bind, throw, throwThe, MonadExceptOf.throw]
  · refine ⟨fun hb => ?_, fun hb => absurd hb.1 (Nat.not_lt.2 h)⟩
    rcases (bind_error h).1 hb with hs | ⟨scope, -, r, -, hr⟩
    · obtain ⟨i, -, p, scope, -, -, hv⟩ := (scopeBefore_error (Nat.le_refl _)).1 hs
      exact absurd hv (argument_ne_tooMany f)
    · cases hr

end FactoryPlan

namespace Sample

/-- A plan whose parameters are a number, a float that is the number if it is left out, and
one that is half of that float. -/
def halving : FactoryPlan where
  declaration := "app::Target.map"
  digest := "0"
  parameters := [⟨"n", "int", none⟩, ⟨"x", "float", some (.param "n")⟩,
    ⟨"y", "float", some (.binary .div (.param "x") (.const (.int 2)))⟩]
  residuals := []
  captures := []
  paramsShape := ⟨"Params_0", [("u", "app::User"), ("n", "int"), ("x", "float"), ("y", "float")]⟩
  varsShape := none
  paramsStage := ⟨"u", .init "Params_0" [("u", .param "u"), ("n", .param "n"), ("x", .param "x"),
    ("y", .param "y")]⟩
  varsStage := none
  finalStage := ⟨"p", .init "app::Target" [("age", .member (.param "p") "y")]⟩

/-- The values of the defaults of this plan, if the number is three. -/
def halved : Nat → Value
  | 1 => .int 3
  | _ => .float (Number.ofInt64 3 / Number.ofInt64 2)

theorem halving_defaults : ∀ i < 3, Args.get? [some (.int 3)] i = none →
    halving.DefaultsTo [some (.int 3)] i (halved i)
  | 0, _, h => by cases h
  | 1, _, _ => ⟨_, _, _, rfl, rfl, rfl, rfl⟩
  | 2, _, _ => ⟨_, _, _, rfl, rfl, rfl, rfl⟩

/-- The first default is passed, and the second one is left out. -/
theorem halving_fills :
    halving.Fills [some (.int 3)] [some (.int 3), some (halved 1), none] where
  within := by decide
  fits := by decide
  kept
    | 0, _, h => h
    | _ + 1, _, h => by cases h
  defaulted
    | 0, _, h, _ => by cases h
    | 1, _, h, hv => Option.some.inj hv ▸ halving_defaults 1 (by decide) h
    | 2, _, _, hv => by cases hv
    | _ + 3, _, _, hv => by cases hv

end Sample

namespace FactoryPlan

/-- An argument that is left out, in the list or at its end, means the value of its default:
the binding is the same with that value passed, for any of the arguments left out, and if all
of them have one only the residual statements may fail. A binding misses an argument exactly
at the first parameter that is left out and has no default, if the defaults before it have
values, and has too many exactly if there are more than parameters. -/
theorem omitted_means_default (f : FactoryPlan) (args : Args) :
    (args.length ≤ f.parameters.length → ∀ values : Nat → Value,
      (∀ i < f.parameters.length, args.get? i = none → f.DefaultsTo args i (values i)) →
      f.bind (f.completed args values) = f.bind args ∧
      ∃ scope, f.bindParameters [] f.parameters args = .ok scope ∧
        ∀ e, f.bind args = .error e ↔
          ∃ r, (Residual.execAll scope f.residuals).failure = some r ∧ .eval r = e) ∧
    (∀ full, f.Fills args full → f.bind full = f.bind args) ∧
    (args.length ≤ f.parameters.length → ∀ name declaration,
      f.bind args = .error (.missingArgument name declaration) ↔ declaration = f.declaration ∧
        ∃ i p, f.parameters[i]? = some p ∧ p.name = name ∧ args.get? i = none ∧
          p.default = none ∧ f.Settles args i) ∧
    ∀ declaration expected found,
      f.bind args = .error (.tooManyArguments declaration expected found) ↔
        f.parameters.length < args.length ∧ f.declaration = declaration ∧
        f.parameters.length = expected ∧ args.length = found := by
  refine ⟨fun hlength values hvalues => ⟨(fills_completed hlength hvalues).bind_eq, ?_⟩,
    fun full h => h.bind_eq, fun hlength name declaration => bind_eq_missing hlength,
    fun declaration expected found => bind_eq_tooMany⟩
  obtain ⟨scope, hscope⟩ := (scopeBefore_eq_ok (Nat.le_refl _)).2
    fun i hi hargs => ⟨values i, hvalues i hi hargs⟩
  refine ⟨scope, by rwa [scopeBefore, List.take_length] at hscope, fun e => ?_⟩
  rw [bind_error hlength, hscope]
  simp

theorem omitted_means_default_halving :
    Sample.halving.bind [some (.int 3), some (Sample.halved 1), some (Sample.halved 2)] =
        Sample.halving.bind [some (.int 3)] ∧
      Sample.halving.bind [some (.int 3), some (Sample.halved 1), none] =
        Sample.halving.bind [some (.int 3)] ∧
      Sample.halving.bind [none, some (.int 3)] =
        .error (.missingArgument "n" "app::Target.map") ∧
      Sample.halving.bind [none, none, none, none] =
        .error (.tooManyArguments "app::Target.map" 3 4) :=
  ⟨((omitted_means_default Sample.halving [some (.int 3)]).1 (by decide) Sample.halved
      Sample.halving_defaults).1,
    (omitted_means_default Sample.halving [some (.int 3)]).2.1 _ Sample.halving_fills,
    ((omitted_means_default Sample.halving [none, some (.int 3)]).2.2.1 (by decide) _ _).2
      ⟨rfl, 0, _, rfl, rfl, rfl, rfl, fun _ hj => (nomatch hj)⟩,
    ((omitted_means_default Sample.halving [none, none, none, none]).2.2.2 _ _ _).2
      ⟨by decide, rfl, rfl, rfl⟩⟩

end FactoryPlan
end StagedMapping
