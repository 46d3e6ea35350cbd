import StagedMapping.Generated.Token

/-! Code with its brackets matched. A `Node` is one token, or a bracket with parts between
commas; a `Phrase` is a part, and has at least one node. The brackets and the commas tell where
a phrase ends, so what it prints can be read in one way only (`Phrase.print_inj`). -/
namespace StagedMapping.Generated

inductive Bracket where
  | round
  | square
  | brace
  deriving DecidableEq

namespace Bracket

def opening : Bracket → String
  | round => "("
  | square => "["
  | brace => "\x7b"

def closing : Bracket → String
  | round => ")"
  | square => "]"
  | brace => "\x7d"

end Bracket

namespace Token

/-- Ends a part: a comma or a closing bracket. -/
def endsPart : Token → Bool
  | symbol text => [",", ")", "]", "\x7d"].contains text
  | _ => false

/-- Opens a bracket. -/
def opens : Token → Bool
  | symbol text => ["(", "[", "\x7b"].contains text
  | _ => false

/-- Stands for itself: no bracket and no comma. -/
def isPlain (t : Token) : Bool := !t.opens && !t.endsPart

end Token

/-- A token that stands for itself, or a bracket with parts between commas. A part is its first
node and those after it. -/
inductive Node where
  | leaf (token : Token) (plain : token.isPlain = true)
  | group (bracket : Bracket) (parts : List (Node × List Node))

abbrev Phrase := Node × List Node

namespace Node

mutual

def print : Node → Code
  | leaf token _ => [token]
  | group bracket parts => .symbol bracket.opening :: printParts parts ++ [.symbol bracket.closing]

def printAll : List Node → Code
  | [] => []
  | n :: rest => print n ++ printAll rest

def printParts : List (Node × List Node) → Code
  | [] => []
  | (n, more) :: rest =>
    print n ++ printAll more ++ (if rest.isEmpty then [] else .symbol "," :: printParts rest)

end

end Node

def Phrase.print (p : Phrase) : Code := p.1.print ++ Node.printAll p.2

namespace Node

theorem printAll_append (ns ms : List Node) : printAll (ns ++ ms) = printAll ns ++ printAll ms := by
  induction ns with
  | nil => rfl
  | cons n ns ih => simp only [List.cons_append, printAll, ih, List.append_assoc]

theorem printParts_single (n : Node) (more : List Node) :
    printParts [(n, more)] = n.print ++ printAll more := List.append_nil _

theorem printParts_cons_cons (n : Node) (more : List Node) (p : Phrase) (rest : List Phrase) :
    printParts ((n, more) :: p :: rest) =
      n.print ++ (printAll more ++ .symbol "," :: printParts (p :: rest)) := by
  rw [printParts]
  exact List.append_assoc ..

theorem printParts_eq (parts : List Phrase) : printParts parts = commas (parts.map Phrase.print) := by
  induction parts with
  | nil => rfl
  | cons p rest ih =>
    obtain ⟨n, more⟩ := p
    cases rest with
    | nil => simp [printParts, commas, Phrase.print]
    | cons q rest =>
      rw [printParts, ih]
      rfl

end Node

/-! ### Reading back -/

/-- Nothing of a part follows. -/
def Ended (rest : Code) : Prop := ∀ t ∈ rest.head?, t.endsPart = true

theorem ended_cons {t : Token} (h : t.endsPart = true) (rest : Code) : Ended (t :: rest) := by
  simpa [Ended] using h

theorem Bracket.eq_of_opening {b c : Bracket} (h : b.opening = c.opening) : b = c := by
  revert h
  cases b <;> cases c <;> decide

theorem Bracket.closing_ne_comma (b : Bracket) : b.closing ≠ "," := by cases b <;> decide

theorem Bracket.endsPart_closing (b : Bracket) : (Token.symbol b.closing).endsPart = true := by
  cases b <;> rfl

namespace Node

/-- A node starts with a token that ends no part. -/
theorem exists_print_eq_cons (n : Node) :
    ∃ t rest, n.print = t :: rest ∧ t.endsPart = false := by
  cases n with
  | leaf token plain =>
    simp only [Token.isPlain, Bool.and_eq_true, Bool.not_eq_true'] at plain
    exact ⟨token, [], rfl, plain.2⟩
  | group bracket parts => exact ⟨_, _, rfl, by cases bracket <;> rfl⟩

/-- A node does not start where a part has ended. -/
theorem not_ended_print (n : Node) (rest : Code) : ¬ Ended (n.print ++ rest) := by
  obtain ⟨t, more, print, starts⟩ := n.exists_print_eq_cons
  rw [print]
  intro ended
  have := ended t rfl
  rw [starts] at this
  cases this

mutual

/-- A node shows by itself where it ends. -/
theorem print_cancel : ∀ (n m : Node) (r s : Code),
    n.print ++ r = m.print ++ s → n = m ∧ r = s
  | leaf t plain, leaf u plain', r, s, h => by
    cases h
    exact ⟨rfl, rfl⟩
  | leaf t plain, group b parts, r, s, h => by
    cases h
    cases b <;> cases plain
  | group b parts, leaf t plain, r, s, h => by
    cases h
    cases b <;> cases plain
  | group b parts, group c parts', r, s, h => by
    simp only [print, List.cons_append, List.append_assoc, List.cons.injEq] at h
    obtain ⟨opening, inner⟩ := h
    obtain rfl := Bracket.eq_of_opening (Token.symbol.inj opening)
    obtain ⟨rfl, rfl⟩ := printParts_cancel b parts parts' r s inner
    exact ⟨rfl, rfl⟩

theorem printAll_cancel : ∀ (ns ms : List Node) (r s : Code), Ended r → Ended s →
    printAll ns ++ r = printAll ms ++ s → ns = ms ∧ r = s
  | [], [], _, _, _, _, h => ⟨rfl, h⟩
  | [], m :: ms, r, s, hr, _, h => by
    rw [printAll, printAll, List.nil_append, List.append_assoc] at h
    exact absurd (h ▸ hr) (m.not_ended_print _)
  | n :: ns, [], r, s, _, hs, h => by
    rw [printAll, printAll, List.nil_append, List.append_assoc] at h
    exact absurd (h ▸ hs) (n.not_ended_print _)
  | n :: ns, m :: ms, r, s, hr, hs, h => by
    rw [printAll, printAll, List.append_assoc, List.append_assoc] at h
    obtain ⟨rfl, tail⟩ := print_cancel n m _ _ h
    obtain ⟨rfl, rest⟩ := printAll_cancel ns ms r s hr hs tail
    exact ⟨rfl, rest⟩

theorem printParts_cancel (b : Bracket) : ∀ (ps qs : List (Node × List Node)) (r s : Code),
    printParts ps ++ .symbol b.closing :: r = printParts qs ++ .symbol b.closing :: s →
      ps = qs ∧ r = s
  | [], [], _, _, h => ⟨rfl, (List.cons.inj h).2⟩
  | [], (m, more) :: qs, r, s, h => by
    rw [printParts, printParts, List.nil_append, List.append_assoc, List.append_assoc] at h
    exact absurd (h ▸ ended_cons b.endsPart_closing r) (m.not_ended_print _)
  | (n, more) :: ps, [], r, s, h => by
    rw [printParts, printParts, List.nil_append, List.append_assoc, List.append_assoc] at h
    exact absurd (h ▸ ended_cons b.endsPart_closing s) (n.not_ended_print _)
  | (n, more) :: [], (m, more') :: [], r, s, h => by
    rw [printParts_single, printParts_single, List.append_assoc, List.append_assoc] at h
    obtain ⟨rfl, tail⟩ := print_cancel n m _ _ h
    obtain ⟨rfl, rest⟩ := printAll_cancel more more' _ _ (ended_cons b.endsPart_closing r)
      (ended_cons b.endsPart_closing s) tail
    exact ⟨rfl, (List.cons.inj rest).2⟩
  | (n, more) :: [], (m, more') :: q :: qs, r, s, h => by
    rw [printParts_single, printParts_cons_cons, List.append_assoc, List.append_assoc,
      List.append_assoc] at h
    obtain ⟨rfl, tail⟩ := print_cancel n m _ _ h
    obtain ⟨-, rest⟩ := printAll_cancel more more' _ _ (ended_cons b.endsPart_closing r)
      (ended_cons rfl _) tail
    exact absurd (Token.symbol.inj (List.cons.inj rest).1) b.closing_ne_comma
  | (n, more) :: p :: ps, (m, more') :: [], r, s, h => by
    rw [printParts_cons_cons, printParts_single, List.append_assoc, List.append_assoc,
      List.append_assoc] at h
    obtain ⟨rfl, tail⟩ := print_cancel n m _ _ h
    obtain ⟨-, rest⟩ := printAll_cancel more more' _ _ (ended_cons rfl _)
      (ended_cons b.endsPart_closing s) tail
    exact absurd (Token.symbol.inj (List.cons.inj rest).1).symm b.closing_ne_comma
  | (n, more) :: p :: ps, (m, more') :: q :: qs, r, s, h => by
    rw [printParts_cons_cons, printParts_cons_cons, List.append_assoc, List.append_assoc,
      List.append_assoc, List.append_assoc] at h
    obtain ⟨rfl, tail⟩ := print_cancel n m _ _ h
    obtain ⟨rfl, rest⟩ := printAll_cancel more more' _ _ (ended_cons rfl _) (ended_cons rfl _) tail
    obtain ⟨parts, rfl⟩ := printParts_cancel b (p :: ps) (q :: qs) r s (List.cons.inj rest).2
    exact ⟨congrArg ((n, more) :: ·) parts, rfl⟩

end

end Node

/-- What a phrase prints determines the phrase. -/
theorem Phrase.print_inj {p q : Phrase} (h : p.print = q.print) : p = q := by
  obtain ⟨n, ns⟩ := p
  obtain ⟨m, ms⟩ := q
  have read := Node.printAll_cancel (n :: ns) (m :: ms) [] [] (by simp [Ended]) (by simp [Ended])
    (congrArg (· ++ []) h)
  obtain ⟨rfl, rfl⟩ := List.cons.inj read.1
  rfl

end StagedMapping.Generated
