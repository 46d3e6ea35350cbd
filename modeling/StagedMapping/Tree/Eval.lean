import StagedMapping.Number.Binary64
import StagedMapping.Number.Checked
import StagedMapping.Text.Blank
import StagedMapping.Text.Case
import StagedMapping.Text.Search
import StagedMapping.Tree

/-! Evaluation of expression trees in a scope. Operands are evaluated from left to right
and the first failure is the result; a connective and a condition evaluate only what they
need. -/
namespace StagedMapping

/-- Why an evaluation fails. -/
inductive EvalError where
  | unbound (name : String)
  | missingMember (typeName member : String)
  | notARecord (member found : String)
  | typeMismatch (context expected found : String)
  | arity (method : Builtin) (found : Nat)
  | divisionByZero
  | overflow (operation : String)
  deriving DecidableEq, Repr

def EvalError.message : EvalError → String
  | unbound name => s!"name '{name}' is not bound"
  | missingMember typeName member => s!"'{typeName}' has no member '{member}'"
  | notARecord member found => s!"cannot read member '{member}' of a {found} value"
  | typeMismatch context expected found =>
    s!"type mismatch in {context}: expected {expected}, found {found}"
  | arity method found =>
    s!"{method.spelling}() takes {method.arity} argument(s), found {found}"
  | divisionByZero => "division by zero"
  | overflow operation => s!"integer overflow in '{operation}'"

/-- The values of the names that are bound. -/
abbrev Scope := List (String × Value)

abbrev Eval := Except EvalError

namespace Value

/-- The failure of an operation on a value of the wrong kind. -/
def mismatch {α : Type} (context expected : String) (v : Value) : Eval α :=
  .error (.typeMismatch context expected v.kind)

def expectBool (context : String) (v : Value) : Eval Bool :=
  match v with
  | bool b => .ok b
  | _ => mismatch context "bool" v

def expectStr (context : String) (v : Value) : Eval String :=
  match v with
  | str s => .ok s
  | _ => mismatch context "str" v

def member (v : Value) (name : String) : Eval Value :=
  match v with
  | record typeName fields =>
    match Bindings.get? fields name with
    | some found => .ok found
    | Option.none => .error (.missingMember typeName name)
  | _ => .error (.notARecord name v.kind)

/-! ### Operations -/

/-- An integer result, or the overflow of an operation. -/
def integer (operation : String) : Option Int64 → Eval Value
  | some n => .ok (int n)
  | Option.none => .error (.overflow operation)

def negate : Value → Eval Value
  | int n => integer "-" (Number.checked (-n.toInt))
  | float x => .ok (float (-x))
  | v => mismatch "'-'" "number" v

def absolute : Value → Eval Value
  | int n => integer "abs()" (Number.checked n.toInt.natAbs)
  | float x => .ok (float x.abs)
  | v => mismatch "abs()" "number" v

/-- A comparison of strings by their characters, or of numbers as floats. -/
def compare (symbol : String) (strings : String → String → Bool) (floats : Float → Float → Bool)
    (a b : Value) : Eval Value :=
  match a, b with
  | str s, str t => .ok (bool (strings s t))
  | _, _ =>
    match a.asFloat, b.asFloat with
    | some x, some y => .ok (bool (floats x y))
    | _, _ => mismatch symbol "two numbers or two strings" b

/-- Arithmetic: exact on two integers, else on floats. -/
def arithmetic (symbol : String) (ints : Int64 → Int64 → Eval Value)
    (floats : Float → Float → Float) (a b : Value) : Eval Value :=
  match a, b with
  | int m, int n => ints m n
  | _, _ =>
    match a.asFloat, b.asFloat with
    | some x, some y => .ok (float (floats x y))
    | Option.none, _ => mismatch symbol "number" a
    | _, Option.none => mismatch symbol "number" b

/-- An integer division, which has no result for a divisor of zero. -/
def division (symbol : String) (f : Int64 → Int64 → Option Int64) (m n : Int64) : Eval Value :=
  if n = 0 then .error .divisionByZero else integer symbol (f m n)

/-- An operation on the values of both operands. -/
def operate (op : BinaryOp) (a b : Value) : Eval Value :=
  match op, a, b with
  | .eq, _, _ => .ok (bool (equal a b))
  | .notEq, _, _ => .ok (bool (!equal a b))
  | .lt, _, _ => compare "<" (fun s t => s < t) (fun x y => x < y) a b
  | .ltEq, _, _ => compare "<=" (fun s t => s ≤ t) (fun x y => x ≤ y) a b
  | .gt, _, _ => compare ">" (fun s t => t < s) (fun x y => y < x) a b
  | .gtEq, _, _ => compare ">=" (fun s t => t ≤ s) (fun x y => y ≤ x) a b
  | .add, str s, str t => .ok (str (s ++ t))
  | .add, _, _ =>
    arithmetic "+" (fun m n => integer "+" (Number.checked (m.toInt + n.toInt))) (· + ·) a b
  | .sub, _, _ =>
    arithmetic "-" (fun m n => integer "-" (Number.checked (m.toInt - n.toInt))) (· - ·) a b
  | .mul, _, _ =>
    arithmetic "*" (fun m n => integer "*" (Number.checked (m.toInt * n.toInt))) (· * ·) a b
  | .div, _, _ => arithmetic "/" (division "/" Number.quotient) (· / ·) a b
  | .mod, _, _ => arithmetic "%" (division "%" Number.rest) Number.remainder a b
  | .and, _, _ => do return bool ((← expectBool "&&" a) && (← expectBool "&&" b))
  | .or, _, _ => do return bool ((← expectBool "||" a) || (← expectBool "||" b))

/-! ### Builtin methods -/

/-- The result of a method on strings. -/
def onStrings (method : Builtin) (s : String) (args : List String) : Value :=
  match method, args with
  | .upper, _ => str (Text.toUpper s)
  | .lower, _ => str (Text.toLower s)
  | .trim, _ => str (Text.trim s)
  | .len, _ => int (Int64.ofNat s.length)
  | .contains, part :: _ => bool (Text.hasPart part.toList s.toList)
  | .startsWith, part :: _ => bool (part.toList.isPrefixOf s.toList)
  | .endsWith, part :: _ => bool (part.toList.isSuffixOf s.toList)
  | .replace, part :: new :: _ =>
    str (String.ofList (Text.replaceAll part.toList new.toList s.toList))
  | _, _ => none

/-- A method of the builtin types, on a receiver and as many arguments as it takes. -/
def invoke (method : Builtin) (receiver : Value) (args : List Value) : Eval Value := do
  if args.length ≠ method.arity then throw (.arity method args.length)
  match method with
  | .toStr => return str receiver.plain
  | .abs => absolute receiver
  | _ =>
    let context := method.spelling ++ "()"
    let s ← expectStr context receiver
    return onStrings method s (← args.mapM (expectStr context))

end Value

/-! ### Evaluation -/

namespace Tree

mutual

def eval (scope : Scope) : Tree → Eval Value
  | const v => .ok v
  | param name =>
    match Bindings.get? scope name with
    | some v => .ok v
    | none => .error (.unbound name)
  | member base name => do (← eval scope base).member name
  | call receiver method args => do
    let v ← eval scope receiver
    v.invoke method (← evalArgs scope args)
  | cond test yes no => do
    if ← (← eval scope test).expectBool "conditional test" then eval scope yes else eval scope no
  | binary .and lhs rhs => do
    if ← (← eval scope lhs).expectBool "'&&'" then
      return .bool (← (← eval scope rhs).expectBool "'&&'")
    else return .bool false
  | binary .or lhs rhs => do
    if ← (← eval scope lhs).expectBool "'||'" then return .bool true
    else return .bool (← (← eval scope rhs).expectBool "'||'")
  | binary op lhs rhs => do
    let a ← eval scope lhs
    let b ← eval scope rhs
    a.operate op b
  | unary .neg operand => do (← eval scope operand).negate
  | unary .not operand => do return .bool (!(← (← eval scope operand).expectBool "'!'"))
  | init typeName bindings => do return .record typeName (← evalBindings scope [] bindings)

def evalArgs (scope : Scope) : List Tree → Eval (List Value)
  | [] => .ok []
  | t :: rest => do
    let v ← eval scope t
    return v :: (← evalArgs scope rest)

/-- Fields are set one after the other, so a repeated name keeps its first place and takes
its last value. -/
def evalBindings (scope : Scope) (fields : List (String × Value)) :
    List (String × Tree) → Eval (List (String × Value))
  | [] => .ok fields
  | (name, t) :: rest => do
    let v ← eval scope t
    evalBindings scope (Bindings.set fields name v) rest

end

end Tree

/-- Applies a function to an argument. -/
def Lambda.apply (l : Lambda) (arg : Value) : Eval Value := l.body.eval [(l.param, arg)]

end StagedMapping
