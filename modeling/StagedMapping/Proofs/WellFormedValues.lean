import StagedMapping.Proofs.Outcomes
import StagedMapping.Residual

/-! Values whose records have different field names, at every depth. Lists of fields do not enforce
it, but evaluation keeps it: records are built by setting their fields, and everything else is a
constant, a value of the scope or a part of one (`Tree.eval_wellFormed`). What evaluation and
binding keep, a run of statements keeps as well, also where it stops at a failure
(`Residual.Kept`, `Residual.execAll_keeps`): well formed values in a scope, if the constants are
well formed, and different names, whatever the constants are. -/
namespace StagedMapping

/-! ### What successful results have -/

/-- If there is a result, it has a property. -/
def Ensures {ε α : Type} (P : α → Prop) (x : Except ε α) : Prop := ∀ a, x = .ok a → P a

section
variable {ε α β : Type} {P : α → Prop} {Q : β → Prop}

theorem ensures_ok {a : α} (h : P a) : Ensures P (.ok a : Except ε α) :=
  fun _ ha => Except.ok.inj ha ▸ h

theorem ensures_error (e : ε) : Ensures P (.error e : Except ε α) := nofun

theorem Ensures.bind {x : Except ε α} {f : α → Except ε β} (hx : Ensures P x)
    (hf : ∀ a, P a → Ensures Q (f a)) : Ensures Q (x >>= f) := fun b hb => by
  obtain ⟨a, ha, hb⟩ := bind_eq_ok.1 hb
  exact hf a (hx a ha) b hb

/-- What follows has the property whatever comes before it. -/
theorem Ensures.of_bind {x : Except ε α} {f : α → Except ε β} (hf : ∀ a, Ensures Q (f a)) :
    Ensures Q (x >>= f) := fun b hb => by
  obtain ⟨a, -, hb⟩ := bind_eq_ok.1 hb
  exact hf a b hb

end

/-! ### Well formed values -/

/-- Every record in the value has fields of different names. -/
inductive Value.WellFormed : Value → Prop where
  | none : WellFormed none
  | bool (b : Bool) : WellFormed (bool b)
  | int (n : Int64) : WellFormed (int n)
  | float (x : Float) : WellFormed (float x)
  | str (s : String) : WellFormed (str s)
  | list {items : List Value} (hitems : ∀ v ∈ items, WellFormed v) : WellFormed (list items)
  | record {typeName : String} {fields : List (String × Value)}
    (hnames : (Bindings.names fields).Nodup) (hfields : ∀ f ∈ fields, WellFormed f.2) :
    WellFormed (record typeName fields)

namespace Bindings

theorem mem_set {α : Type} {bs : List (String × α)} {name : String} {v : α} {b : String × α}
    (h : b ∈ set bs name v) : b.2 = v ∨ b ∈ bs := by
  induction bs with
  | nil =>
    rw [set, List.mem_singleton] at h
    exact .inl (h ▸ rfl)
  | cons c rest ih =>
    rw [set] at h
    split at h
    · rcases List.mem_cons.1 h with rfl | h
      · exact .inl rfl
      · exact .inr (List.mem_cons_of_mem _ h)
    · rcases List.mem_cons.1 h with rfl | h
      · exact .inr List.mem_cons_self
      · exact (ih h).imp_right (List.mem_cons_of_mem _)

/-- Different names with well formed values, as the fields of a record or a scope. -/
structure WellFormed (bs : List (String × Value)) : Prop where
  distinct : (names bs).Nodup
  values : ∀ b ∈ bs, b.2.WellFormed

theorem wellFormed_nil : WellFormed [] := ⟨List.nodup_nil, List.forall_mem_nil _⟩

theorem WellFormed.set {bs : List (String × Value)} (h : WellFormed bs) (name : String) {v : Value}
    (hv : v.WellFormed) : WellFormed (set bs name v) where
  distinct := nodup_names_set h.distinct name v
  values := fun _ hb => (mem_set hb).elim (fun he => he ▸ hv) (h.values _)

end Bindings

/-! ### Operations -/

namespace Value

theorem WellFormed.coerce {v : Value} (h : v.WellFormed) (type : String) :
    (v.coerce type).WellFormed := by
  cases h with
  | int n =>
    unfold Value.coerce
    dsimp only
    split
    · exact .float _
    · exact .int n
  | none => exact .none
  | bool b => exact .bool b
  | float x => exact .float x
  | str s => exact .str s
  | list hitems => exact .list hitems
  | record hnames hfields => exact .record hnames hfields

theorem mismatch_wellFormed (context expected : String) (v : Value) :
    Ensures WellFormed (mismatch context expected v) := ensures_error _

theorem integer_wellFormed (operation : String) (n : Option Int64) :
    Ensures WellFormed (integer operation n) := by
  cases n with
  | none => exact ensures_error _
  | some n => exact ensures_ok (.int n)

theorem member_wellFormed {v : Value} (h : v.WellFormed) (name : String) :
    Ensures WellFormed (v.member name) := by
  cases h with
  | record hnames hfields =>
    unfold member
    dsimp only
    split
    · next found hfound => exact ensures_ok (hfields _ (Bindings.mem_of_get? hfound))
    · exact ensures_error _
  | _ => exact ensures_error _

theorem negate_wellFormed (v : Value) : Ensures WellFormed v.negate := by
  cases v with
  | int n => exact integer_wellFormed _ _
  | float x => exact ensures_ok (.float _)
  | _ => exact mismatch_wellFormed _ _ _

theorem absolute_wellFormed (v : Value) : Ensures WellFormed v.absolute := by
  cases v with
  | int n => exact integer_wellFormed _ _
  | float x => exact ensures_ok (.float _)
  | _ => exact mismatch_wellFormed _ _ _

theorem compare_wellFormed (symbol : String) (strings : String → String → Bool)
    (floats : Float → Float → Bool) (a b : Value) :
    Ensures WellFormed (compare symbol strings floats a b) := by
  unfold compare
  split
  · exact ensures_ok (.bool _)
  · split
    · exact ensures_ok (.bool _)
    · exact mismatch_wellFormed _ _ _

theorem arithmetic_wellFormed (symbol : String) {ints : Int64 → Int64 → Eval Value}
    (floats : Float → Float → Float) (a b : Value) (h : ∀ m n, Ensures WellFormed (ints m n)) :
    Ensures WellFormed (arithmetic symbol ints floats a b) := by
  unfold arithmetic
  split
  · exact h _ _
  · split
    · exact ensures_ok (.float _)
    · exact mismatch_wellFormed _ _ _
    · exact mismatch_wellFormed _ _ _

theorem division_wellFormed (symbol : String) (f : Int64 → Int64 → Option Int64) (m n : Int64) :
    Ensures WellFormed (division symbol f m n) := by
  unfold division
  split
  · exact ensures_error _
  · exact integer_wellFormed _ _

theorem operate_wellFormed (op : BinaryOp) (a b : Value) : Ensures WellFormed (a.operate op b) := by
  unfold operate
  split
  case h_1 | h_2 => exact ensures_ok (.bool _)
  case h_3 | h_4 | h_5 | h_6 => exact compare_wellFormed _ _ _ _ _
  case h_7 => exact ensures_ok (.str _)
  case h_8 | h_9 | h_10 =>
    exact arithmetic_wellFormed _ _ _ _ fun _ _ => integer_wellFormed _ _
  case h_11 | h_12 => exact arithmetic_wellFormed _ _ _ _ fun _ _ => division_wellFormed _ _ _ _
  case h_13 | h_14 => exact .of_bind fun _ => .of_bind fun _ => ensures_ok (.bool _)

theorem onStrings_wellFormed (method : Builtin) (s : String) (args : List String) :
    (onStrings method s args).WellFormed := by
  unfold onStrings
  split
  case h_1 | h_2 | h_3 | h_8 => exact .str _
  case h_4 => exact .int _
  case h_5 | h_6 | h_7 => exact .bool _
  case h_9 => exact .none

theorem invoke_wellFormed (method : Builtin) (v : Value) (args : List Value) :
    Ensures WellFormed (v.invoke method args) := by
  by_cases h : args.length = method.arity
  · simp only [invoke, h, ne_eq, not_true_eq_false, if_false]
    split
    · exact ensures_ok (.str _)
    · exact absolute_wellFormed v
    · exact .of_bind fun s => .of_bind fun strings => ensures_ok (onStrings_wellFormed _ s strings)
  · simp only [invoke, ne_eq, h, not_false_eq_true, if_true]
    exact ensures_error _

end Value

/-! ### Constants -/

mutual

/-- The constants of a tree. -/
def Tree.constants : Tree → List Value
  | .const v => [v]
  | .param _ => []
  | .member base _ => constants base
  | .call receiver _ args => constants receiver ++ argConstants args
  | .cond test yes no => constants test ++ (constants yes ++ constants no)
  | .binary _ lhs rhs => constants lhs ++ constants rhs
  | .unary _ operand => constants operand
  | .init _ bindings => bindingConstants bindings

def Tree.argConstants : List Tree → List Value
  | [] => []
  | t :: rest => constants t ++ argConstants rest

def Tree.bindingConstants : List (String × Tree) → List Value
  | [] => []
  | (_, t) :: rest => constants t ++ bindingConstants rest

end

mutual

def Residual.constants : Residual → List Value
  | .letIn _ _ value => value.elim [] Tree.constants
  | .assign _ value => value.constants
  | .branch test yes no => test.constants ++ (blockConstants yes ++ blockConstants no)
  | .eval value => value.constants

def Residual.blockConstants : List Residual → List Value
  | [] => []
  | s :: rest => constants s ++ blockConstants rest

end

/-! ### Evaluation -/

namespace Tree
open Value

mutual

theorem eval_wellFormed {scope : Scope} (hscope : ∀ b ∈ scope, b.2.WellFormed) : (t : Tree) →
    (∀ c ∈ t.constants, c.WellFormed) → Ensures WellFormed (t.eval scope)
  | const v, h => ensures_ok (h v (List.mem_singleton.2 rfl))
  | param name, _ => by
    rw [eval]
    split
    · next v hv => exact ensures_ok (hscope _ (Bindings.mem_of_get? hv))
    · exact ensures_error _
  | member base name, h => by
    rw [eval]
    exact (eval_wellFormed hscope base h).bind fun v hv => member_wellFormed hv name
  | call receiver method args, _ => by
    rw [eval]
    exact .of_bind fun v => .of_bind fun vs => invoke_wellFormed method v vs
  | cond test yes no, h => by
    obtain ⟨-, h⟩ := List.forall_mem_append.1 h
    obtain ⟨hyes, hno⟩ := List.forall_mem_append.1 h
    rw [eval]
    refine .of_bind fun v => .of_bind fun b => ?_
    cases b
    · exact eval_wellFormed hscope no hno
    · exact eval_wellFormed hscope yes hyes
  | binary op lhs rhs, _ => by
    cases op with
    | and =>
      rw [eval]
      refine .of_bind fun v => .of_bind fun b => ?_
      cases b
      · exact ensures_ok (.bool _)
      · exact .of_bind fun _ => .of_bind fun _ => ensures_ok (.bool _)
    | or =>
      rw [eval]
      refine .of_bind fun v => .of_bind fun b => ?_
      cases b
      · exact .of_bind fun _ => .of_bind fun _ => ensures_ok (.bool _)
      · exact ensures_ok (.bool _)
    | _ => exact .of_bind fun a => .of_bind fun b => operate_wellFormed _ a b
  | unary op operand, _ => by
    cases op with
    | neg => exact .of_bind fun v => negate_wellFormed v
    | not => exact .of_bind fun v => .of_bind fun _ => ensures_ok (.bool _)
  | init typeName bindings, h => by
    rw [eval]
    exact (evalBindings_wellFormed hscope bindings Bindings.wellFormed_nil h).bind
      fun fields hfields => ensures_ok (.record hfields.distinct hfields.values)

/-- Setting the fields of a record one after the other keeps their names different. -/
theorem evalBindings_wellFormed {scope : Scope} (hscope : ∀ b ∈ scope, b.2.WellFormed) :
    (bs : List (String × Tree)) → {fields : List (String × Value)} →
    Bindings.WellFormed fields → (∀ c ∈ bindingConstants bs, c.WellFormed) →
    Ensures Bindings.WellFormed (evalBindings scope fields bs)
  | [], _, hfields, _ => ensures_ok hfields
  | (name, t) :: rest, _, hfields, h => by
    obtain ⟨ht, hrest⟩ := List.forall_mem_append.1 h
    rw [evalBindings]
    exact (eval_wellFormed hscope t ht).bind fun v hv =>
      evalBindings_wellFormed hscope rest (hfields.set name hv) hrest

end

end Tree

/-! ### Statements -/

namespace Residual

/-- A property of scopes, and one of values, that evaluation and binding keep: where the scope and
the constants have theirs, so does what a tree gives, and binding it leaves a scope with its own. -/
structure Kept (I : Scope → Prop) (P : Value → Prop) : Prop where
  none : P .none
  coerce : ∀ {v}, P v → ∀ type, P (v.coerce type)
  eval : ∀ {scope}, I scope → ∀ t : Tree, (∀ c ∈ t.constants, P c) → Ensures P (t.eval scope)
  set : ∀ {scope}, I scope → ∀ name {v}, P v → I (Bindings.set scope name v)

section
variable {I : Scope → Prop} {P : Value → Prop} (h : Kept I P) {scope : Scope} (hscope : I scope)
include hscope

theorem attempt_keeps {step : Eval Scope} (hstep : Ensures I step) :
    I (attempt scope step).scope := by
  cases step with
  | ok after => exact hstep after rfl
  | error e => exact hscope

include h

theorem initial_keeps (type : Option String) {value : Option Tree}
    (hvalue : ∀ c ∈ value.elim [] Tree.constants, P c) : Ensures P (initial scope type value) := by
  cases type with
  | none =>
    cases value with
    | none => exact ensures_ok h.none
    | some t => exact (h.eval hscope t hvalue).bind fun v hv => ensures_ok hv
  | some type =>
    cases value with
    | none => exact ensures_ok (h.coerce h.none type)
    | some t => exact (h.eval hscope t hvalue).bind fun v hv => ensures_ok (h.coerce hv type)

theorem change_keeps (name : String) {v : Value} (hv : P v) : Ensures I (change scope name v) := by
  unfold change
  split
  · exact ensures_ok (h.set hscope name hv)
  · exact ensures_error _

end

section
variable {I : Scope → Prop} {P : Value → Prop}

mutual

/-- A statement that fails leaves its scope as it was; the others bind values that are kept. -/
theorem exec_keeps (h : Kept I P) : (s : Residual) → {scope : Scope} → I scope →
    (∀ c ∈ s.constants, P c) → I (exec scope s).scope
  | letIn name type value, _, hscope, hc =>
    attempt_keeps hscope ((initial_keeps h hscope type hc).bind fun v hv =>
      ensures_ok (h.set hscope name hv))
  | assign name value, _, hscope, hc =>
    attempt_keeps hscope ((h.eval hscope value hc).bind fun v hv => change_keeps h hscope name hv)
  | branch test yes no, scope, hscope, hc => by
    obtain ⟨-, hc⟩ := List.forall_mem_append.1 hc
    obtain ⟨hyes, hno⟩ := List.forall_mem_append.1 hc
    rw [exec]
    split
    · exact hscope
    · exact execAll_keeps h yes hscope hyes
    · exact execAll_keeps h no hscope hno
    · exact attempt_keeps hscope (ensures_error _)
  | eval value, _, hscope, _ =>
    attempt_keeps hscope (.of_bind fun _ => ensures_ok hscope)

theorem execAll_keeps (h : Kept I P) : (ss : List Residual) → {scope : Scope} → I scope →
    (∀ c ∈ blockConstants ss, P c) → I (execAll scope ss).scope
  | [], _, hscope, _ => hscope
  | s :: rest, scope, hscope, hc => by
    obtain ⟨hs, hrest⟩ := List.forall_mem_append.1 hc
    have hafter := exec_keeps h s hscope hs
    rw [execAll]
    split
    · next after heq =>
      rw [heq] at hafter
      exact execAll_keeps h rest hafter hrest
    · exact hafter

end

end

theorem kept_wellFormed : Kept Bindings.WellFormed Value.WellFormed where
  none := .none
  coerce := Value.WellFormed.coerce
  eval := fun hscope => Tree.eval_wellFormed hscope.values
  set := fun hscope name _ hv => hscope.set name hv

/-- Names stay different whatever the values are. -/
theorem kept_distinct : Kept (fun scope => (Bindings.names scope).Nodup) fun _ => True where
  none := trivial
  coerce := fun _ _ => trivial
  eval := fun _ _ _ _ _ => trivial
  set := fun hscope name v _ => Bindings.nodup_names_set hscope name v

end Residual
end StagedMapping
