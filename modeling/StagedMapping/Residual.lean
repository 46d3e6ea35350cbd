import StagedMapping.Tree.Eval

/-! Residual statements: the part of a factory body that does not read the source. They run
once, in one flat scope, before the stages; a failure stops them and what they bound before
it stays bound (`Outcome`). -/
namespace StagedMapping

inductive Residual where
  /-- Binds a name, to none without a value; a declared type may make a float of an integer. -/
  | letIn (name : String) (type : Option String) (value : Option Tree)
  /-- Changes a name that is bound. -/
  | assign (name : String) (value : Tree)
  | branch (test : Tree) (yes no : List Residual)
  | eval (value : Tree)
  deriving Repr

/-- What a run leaves: its scope, and the failure that stopped it. -/
structure Outcome where
  scope : Scope
  failure : Option EvalError
  deriving Repr

/-- The scope after a run without a failure. -/
def Outcome.toExcept (o : Outcome) : Eval Scope :=
  match o.failure with
  | none => .ok o.scope
  | some e => .error e

namespace Residual

/-- What a step makes of a scope, which stays as it was if the step fails. -/
def attempt (scope : Scope) (step : Eval Scope) : Outcome :=
  match step with
  | .ok after => ⟨after, none⟩
  | .error e => ⟨scope, some e⟩

/-- Binds a name that is bound already. -/
def change (scope : Scope) (name : String) (value : Value) : Eval Scope :=
  match Bindings.get? scope name with
  | some _ => .ok (Bindings.set scope name value)
  | none => .error (.unbound name)

/-- The value of a `let`. -/
def initial (scope : Scope) (type : Option String) (value : Option Tree) : Eval Value := do
  let v ← match value with
    | some t => t.eval scope
    | none => pure .none
  return match type with
    | some type => v.coerce type
    | none => v

mutual

def exec (scope : Scope) : Residual → Outcome
  | letIn name type value =>
    attempt scope do return Bindings.set scope name (← initial scope type value)
  | assign name value => attempt scope do change scope name (← value.eval scope)
  | branch test yes no =>
    match test.eval scope with
    | .error e => ⟨scope, some e⟩
    | .ok (.bool true) => execAll scope yes
    | .ok (.bool false) => execAll scope no
    | .ok v => attempt scope (v.mismatch "if condition" "bool")
  | eval value => attempt scope do
      let _ ← value.eval scope
      return scope

/-- Statements in order, up to the first failure. -/
def execAll (scope : Scope) : List Residual → Outcome
  | [] => ⟨scope, none⟩
  | s :: rest =>
    match exec scope s with
    | ⟨after, none⟩ => execAll after rest
    | stopped => stopped

end

mutual

def text : Residual → String
  | letIn name type value =>
    let typed := match type with
      | some type => ": " ++ type
      | none => ""
    let valued := match value with
      | some t => " = " ++ t.text
      | none => ""
    "let " ++ name ++ typed ++ valued
  | assign name value => name ++ " = " ++ value.text
  | branch test yes no =>
    let otherwise := if no.isEmpty then "" else " else \x7b" ++ blockText no ++ " \x7d"
    "if " ++ test.text ++ " \x7b" ++ blockText yes ++ " \x7d" ++ otherwise
  | eval value => value.text

/-- Each statement after a blank, with a semicolon. -/
def blockText : List Residual → String
  | [] => ""
  | s :: rest => " " ++ text s ++ ";" ++ blockText rest

end

end Residual
end StagedMapping
