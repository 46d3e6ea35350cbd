import StagedMapping.Proofs.Evaluation
import StagedMapping.Residual

/-! Runs of residuals. A run goes step by step in one flat scope (`Residual.run`), so what is
said of each kind of step is said of every run. What a scope proof needs of a run is that it
does not fail for want of a name and that some names are bound after it (`Eval.Binds`); the
two are kept together, since a step needs what the steps before it bound. -/
namespace StagedMapping

/-! ### Runs of residuals -/

/-- A run that goes on where the one before it did not fail. -/
def Outcome.andThen (o : Outcome) (next : Scope → Outcome) : Outcome :=
  match o.failure with
  | none => next o.scope
  | some _ => o

theorem Outcome.toExcept_andThen (o : Outcome) (next : Scope → Outcome) :
    (o.andThen next).toExcept = o.toExcept >>= fun after => (next after).toExcept := by
  obtain ⟨scope, _ | e⟩ := o <;> rfl

namespace Residual

theorem execAll_cons (scope : Scope) (s : Residual) (rest : List Residual) :
    execAll scope (s :: rest) = (exec scope s).andThen fun after => execAll after rest := by
  rw [execAll]
  rcases exec scope s with ⟨after, _ | e⟩ <;> rfl

theorem execAll_singleton (scope : Scope) (s : Residual) : execAll scope [s] = exec scope s := by
  rw [execAll_cons]
  rcases exec scope s with ⟨after, _ | e⟩ <;> rfl

theorem execAll_append (scope : Scope) (a b : List Residual) :
    execAll scope (a ++ b) = (execAll scope a).andThen fun after => execAll after b := by
  induction a generalizing scope with
  | nil => rfl
  | cons s rest ih =>
    rw [List.cons_append, execAll_cons, execAll_cons]
    rcases exec scope s with ⟨after, _ | e⟩
    · exact ih after
    · rfl

/-- A run as the scope that it leaves, or the failure that stops it. -/
def run (scope : Scope) (rs : List Residual) : Eval Scope := (execAll scope rs).toExcept

theorem toExcept_attempt (scope : Scope) (step : Eval Scope) :
    (attempt scope step).toExcept = step := by
  cases step <;> rfl

theorem run_cons (scope : Scope) (s : Residual) (rest : List Residual) :
    run scope (s :: rest) = (exec scope s).toExcept >>= fun after => run after rest := by
  rw [run, execAll_cons, Outcome.toExcept_andThen]
  rfl

theorem run_append (scope : Scope) (a b : List Residual) :
    run scope (a ++ b) = run scope a >>= fun after => run after b := by
  rw [run, execAll_append, Outcome.toExcept_andThen]
  rfl

theorem run_singleton (scope : Scope) (s : Residual) :
    run scope [s] = (exec scope s).toExcept := by
  rw [run, execAll_singleton]

theorem run_letIn (scope : Scope) (name : String) (type : Option String) (value : Option Tree) :
    run scope [letIn name type value] =
      (initial scope type value >>= fun v => .ok (Bindings.set scope name v)) := by
  rw [run_singleton, exec, toExcept_attempt]
  rfl

theorem run_assign (scope : Scope) (name : String) (value : Tree) :
    run scope [assign name value] = value.eval scope >>= change scope name := by
  rw [run_singleton, exec, toExcept_attempt]

theorem run_eval (scope : Scope) (value : Tree) :
    run scope [eval value] = value.eval scope >>= fun _ => .ok scope := by
  rw [run_singleton, exec, toExcept_attempt]
  rfl

theorem run_branch (scope : Scope) (test : Tree) (yes no : List Residual) :
    run scope [branch test yes no] = test.eval scope >>= fun
      | .bool true => run scope yes
      | .bool false => run scope no
      | v => v.mismatch "if condition" "bool" := by
  rw [run_singleton, exec]
  cases test.eval scope with
  | error e => rfl
  | ok v =>
    cases v with
    | bool b => cases b <;> rfl
    | _ => rfl

end Residual

/-! ### What is bound after a run -/

/-- A run that does not fail for want of a name, and that leaves names bound. -/
structure Eval.Binds (bound : List String) (e : Eval Scope) : Prop where
  safe : Eval.Bound e
  after : ∀ scope, e = .ok scope → ∀ n ∈ bound, n ∈ Bindings.names scope

namespace Eval

theorem binds_ok {bound : List String} {scope : Scope}
    (h : ∀ n ∈ bound, n ∈ Bindings.names scope) : Binds bound (.ok scope) where
  safe := bound_ok scope
  after := fun _ hs => by cases hs; exact h

theorem Binds.mono {some all : List String} {e : Eval Scope} (h : Binds all e)
    (hs : ∀ n ∈ some, n ∈ all) : Binds some e where
  safe := h.safe
  after := fun scope he n hn => h.after scope he n (hs n hn)

/-- A run after a result. -/
theorem Bound.binds {α : Type} {bound : List String} {x : Eval α} {f : α → Eval Scope}
    (hx : Bound x) (hf : ∀ a, Binds bound (f a)) : Binds bound (x >>= f) where
  safe := hx.bind fun a _ => (hf a).safe
  after := by
    cases x with
    | error e => exact fun _ h => by cases h
    | ok a => exact (hf a).after

/-- A run after a run. -/
theorem Binds.bind {before bound : List String} {x : Eval Scope} {f : Scope → Eval Scope}
    (hx : Binds before x)
    (hf : ∀ scope, (∀ n ∈ before, n ∈ Bindings.names scope) → Binds bound (f scope)) :
    Binds bound (x >>= f) where
  safe := hx.safe.bind fun scope h => (hf scope (hx.after scope h)).safe
  after := by
    cases x with
    | error e => exact fun _ h => by cases h
    | ok scope => exact (hf scope (hx.after scope rfl)).after

end Eval

end StagedMapping
