import StagedMapping.Source.Expr
import StagedMapping.Source.Problem
import StagedMapping.Source.Token

/-! Reading tokens one after the other. A `Cursor n` is a place with at most `n` tokens
ahead, the end mark not counted. A reader starts at a cursor and either fails, with a
problem and the place where it gave up (`Failure`), or goes on from a later place:
strictly later for a `Step`, not earlier for a `Reach`. So every reader is bounded by what
is ahead of it, and never passes the end mark. -/
namespace StagedMapping.Source

/-- A place in the tokens of a source. -/
structure Cursor (n : Nat) where
  /-- The tokens up to the end mark. -/
  ahead : List Token
  /-- Where the last token that was passed ends. -/
  previousEnd : Nat
  /-- Where the end mark stands. -/
  endSpan : Span
  /-- A namespace declaration was passed. -/
  namespaced : Bool
  bounded : ahead.length ≤ n

/-- A problem and the place where reading stopped. -/
structure Failure (n : Nat) where
  problem : Problem
  place : Cursor n

namespace Cursor
variable {n : Nat}

def size (c : Cursor n) : Nat := c.ahead.length

/-- The token at the cursor. -/
def kind (c : Cursor n) : TokenKind :=
  match c.ahead with
  | [] => .eof
  | t :: _ => t.kind

def span (c : Cursor n) : Span :=
  match c.ahead with
  | [] => c.endSpan
  | t :: _ => t.span

/-- The start of a token list; what follows its first end mark is not looked at. -/
def start (tokens : List Token) : Cursor tokens.length where
  ahead := tokens.takeWhile fun t => !t.kind.isEof
  previousEnd := (tokens.head?.map (·.span.stop)).getD 0
  endSpan := ((tokens.find? (·.kind.isEof)).map (·.span)).getD .none
  namespaced := false
  bounded := (tokens.takeWhile_sublist _).length_le

/-- The same place, bounded by what is in fact ahead. -/
def rebase (c : Cursor n) : Cursor c.size := { c with bounded := Nat.le_refl _ }

/-- The place after the first token; the end mark stays ahead. -/
def advance (c : Cursor n) : Cursor n :=
  match h : c.ahead with
  | [] => c
  | t :: rest =>
    { c with
      ahead := rest
      previousEnd := t.span.stop
      bounded := by
        have := c.bounded
        rw [h] at this
        exact Nat.le_of_succ_le this }

/-- The place after all tokens at the cursor that satisfy `p`. -/
def skipWhile (p : TokenKind → Bool) (c : Cursor n) : Cursor n where
  ahead := c.ahead.dropWhile fun t => p t.kind
  previousEnd :=
    ((c.ahead.takeWhile fun t => p t.kind).getLast?.map (·.span.stop)).getD c.previousEnd
  endSpan := c.endSpan
  namespaced := c.namespaced
  bounded := Nat.le_trans (c.ahead.dropWhile_sublist _).length_le c.bounded

def skipNewlines (c : Cursor n) : Cursor n := c.skipWhile TokenKind.isNewline

def skipDedents (c : Cursor n) : Cursor n := c.skipWhile TokenKind.isDedent

/-- A simple statement may end here. -/
def atLineEnd (c : Cursor n) : Bool := c.kind.isNewline || c.kind.isDedent || c.kind.isEof

/-- A block ends here. -/
def atBlockEnd (c : Cursor n) : Bool := c.kind.isDedent || c.kind.isEof

@[simp] theorem rebase_size (c : Cursor n) : c.rebase.size = c.size := rfl

theorem size_le (c : Cursor n) : c.size ≤ n := c.bounded

theorem skipWhile_size_le (p : TokenKind → Bool) (c : Cursor n) : (c.skipWhile p).size ≤ c.size :=
  (c.ahead.dropWhile_sublist _).length_le

theorem advance_size (c : Cursor n) : c.advance.size = c.size - 1 := by
  unfold advance size
  split <;> simp_all

end Cursor

/-- A value and a strictly later place. -/
structure Step {n : Nat} (α : Type) (c : Cursor n) where
  value : α
  next : Cursor n
  lt : next.size < c.size

/-- A value and a place that is not earlier. -/
structure Reach {n : Nat} (α : Type) (c : Cursor n) where
  value : α
  next : Cursor n
  le : next.size ≤ c.size

namespace Step
variable {n : Nat} {α β : Type} {c : Cursor n}

/-- The same place with another value. -/
def give (s : Step α c) (b : β) : Step β c := ⟨b, s.next, s.lt⟩

/-- A step and the next one, as one step with the value of the second. -/
def andThen (s : Step α c) (t : Step β s.next) : Step β c :=
  ⟨t.value, t.next, Nat.lt_trans t.lt s.lt⟩

/-- Goes on from a step, possibly over nothing. -/
def andMaybe (s : Step α c) (t : Reach β s.next) : Step β c :=
  ⟨t.value, t.next, Nat.lt_of_le_of_lt t.le s.lt⟩

/-- A step is more than a reach. -/
def toReach (s : Step α c) : Reach α c := ⟨s.value, s.next, Nat.le_of_lt s.lt⟩

end Step

namespace Reach
variable {n : Nat} {α β : Type} {c : Cursor n}

/-- Nothing is passed. -/
def stay (a : α) (c : Cursor n) : Reach α c := ⟨a, c, Nat.le_refl _⟩

def give (r : Reach α c) (b : β) : Reach β c := ⟨b, r.next, r.le⟩

/-- A step from where a reach ended. -/
def andThen (r : Reach α c) (t : Step β r.next) : Step β c :=
  ⟨t.value, t.next, Nat.lt_of_lt_of_le t.lt r.le⟩

def andMaybe (r : Reach α c) (t : Reach β r.next) : Reach β c :=
  ⟨t.value, t.next, Nat.le_trans t.le r.le⟩

end Reach

/-- Reads on from a cursor, at least one token. -/
abbrev Read {n : Nat} (α : Type) (c : Cursor n) := Except (Failure n) (Step α c)

/-- Reads on from a cursor, possibly nothing. -/
abbrev ReadSome {n : Nat} (α : Type) (c : Cursor n) := Except (Failure n) (Reach α c)

namespace Cursor
variable {n : Nat} {α : Type}

/-- Passes the token at the cursor if `f` makes something of it. -/
def take? (f : TokenKind → Option α) (c : Cursor n) : Option (Step α c) :=
  match h : c.ahead with
  | [] => none
  | t :: rest =>
    (f t.kind).map fun a =>
      { value := a
        next :=
          { c with
            ahead := rest
            previousEnd := t.span.stop
            bounded := by
              have := c.bounded
              rw [h] at this
              exact Nat.le_of_succ_le this }
        lt := by simp [size, h] }

/-- Passes the token at the cursor if it satisfies `p`. -/
def eat? (p : TokenKind → Bool) (c : Cursor n) : Option (Step Unit c) :=
  c.take? fun k => if p k then some () else none

/-- A name directly before an equals sign; passes both. -/
def assigned? (c : Cursor n) : Option (Step Ident c) :=
  match h : c.ahead with
  | ⟨.ident name, span⟩ :: ⟨.operator .eq, eqSpan⟩ :: rest =>
    some
      { value := ⟨name, span⟩
        next :=
          { c with
            ahead := rest
            previousEnd := eqSpan.stop
            bounded := by
              have := c.bounded
              rw [h] at this
              simp only [List.length_cons] at this
              omega }
        lt := by
          simp only [size, h, List.length_cons]
          omega }
  | _ => none

/-- A problem at the token at the cursor. -/
def unexpected (c : Cursor n) (wanted : String) : Failure n :=
  ⟨⟨.unexpected wanted c.kind.describe, c.span⟩, c⟩

/-- A fault found before the cursor. -/
def fault (c : Cursor n) (f : Fault) (span : Span) : Failure n := ⟨⟨f, span⟩, c⟩

/-- Passes a token that has to be there. -/
def expect (p : TokenKind → Bool) (wanted : String) (c : Cursor n) : Read Unit c :=
  match c.eat? p with
  | some s => .ok s
  | none => .error (c.unexpected wanted)

def identifier? : TokenKind → Option String
  | .ident name => some name
  | _ => none

def identifier (c : Cursor n) : Read String c :=
  match c.take? identifier? with
  | some s => .ok s
  | none => .error (c.unexpected "identifier")

/-- Passes a token if it is there, and says whether it was. -/
def optional (p : TokenKind → Bool) (c : Cursor n) : Reach Bool c :=
  match c.eat? p with
  | some s => (s.give true).toReach
  | none => .stay false c

/-- Notes that a namespace is declared here. -/
def inNamespace (c : Cursor n) : Reach Unit c :=
  ⟨(), { c with namespaced := true }, Nat.le_refl _⟩

/-- The start of the next line that is not empty. -/
def toLine (c : Cursor n) : Reach Unit c :=
  ⟨(), c.skipNewlines, c.skipWhile_size_le _⟩

/-- Items with a mark between each two of them. -/
def separated (p : TokenKind → Bool) (item : (c : Cursor n) → Read α c) (c : Cursor n) :
    Read (List α) c := do
  let first ← item c
  match first.next.eat? p with
  | none => return first.give [first.value]
  | some sep =>
    have := first.lt
    have := sep.lt
    let more ← separated p item sep.next
    return ((first.andThen sep).andThen more).give (first.value :: more.value)
termination_by c.size

end Cursor
end StagedMapping.Source
