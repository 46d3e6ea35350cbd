import StagedMapping.Proofs.AtomText
import StagedMapping.Proofs.Identifiers
import StagedMapping.Proofs.ParsedShape
import StagedMapping.Lowering

/-! The text of a tree by its parts. A tree that is `Legible` starts with an atom, which tells most
kinds of trees apart, and ends before a blank, a comma or a closing parenthesis
(`Legible.chars_eq`). -/
namespace StagedMapping
open Lexer (IsName Stops isIdentStart)

/-! ### Values -/

/-- The text of a constant that a tree has from a source, as an atom. -/
def Value.atom : Value → Atom
  | .int n => .number ⟨Nat.toDigits 10 n.toInt.toNat, [], Option.none⟩
  | .float x => .number (Number.numeral x)
  | .str s => .quoted s
  | v => .word v.text

/-- A float beyond all bounds, which is written as a word. -/
def Value.isInfinite : Value → Bool
  | .float x => x.isInf
  | _ => false

theorem Lexer.IsName.ne_spelling {name : String} (h : IsName name) (k : Keyword) :
    name ≠ k.spelling := by
  rintro rfl
  have := h.free
  rw [Lexer.wordKind_spelling] at this
  cases this

namespace Lowering
variable {l k : Source.Literal}

theorem isUnsigned_of_unsigned {x : Float} (h : Source.Literal.Unsigned (.float x)) :
    Number.IsUnsigned x := by
  obtain ⟨c, cs, digit, read⟩ := h
  exact Number.isUnsigned_of_readFloat digit read

theorem isUnbounded_of_unsigned {x : Float} (h : Source.Literal.Unsigned (.float x))
    (finite : x.isInf = false) : Number.isUnbounded x = false := by
  rw [Number.isUnbounded, finite, (isUnsigned_of_unsigned h).1]
  rfl

theorem atom_spec (h : l.Unsigned) (finite : (ofLiteral l).isInfinite = false) :
    (ofLiteral l).text.toList = (ofLiteral l).atom.chars ∧ (ofLiteral l).atom.Proper := by
  cases l with
  | int n =>
    have size : (n.toInt.toNat : ℤ) = n.toInt := Int.toNat_of_nonneg h
    refine ⟨?_, Nat.toDigits_ne_nil, fun c => Nat.isDigit_of_mem_toDigits (by decide) (by decide),
      List.forall_mem_nil _⟩
    show (toString n.toInt).toList = Nat.toDigits 10 n.toInt.toNat ++ []
    rw [List.append_nil, ← Number.toList_toString_nat, size]
  | float x =>
    have bounded := isUnbounded_of_unsigned h finite
    exact ⟨Number.render_eq bounded (isUnsigned_of_unsigned h).2, (Number.numeral_spec bounded).1⟩
  | string s => exact ⟨rfl, trivial⟩
  | bool b =>
    cases b
    · exact ⟨rfl, Lexer.isWord_spelling .falseWord⟩
    · exact ⟨rfl, Lexer.isWord_spelling .trueWord⟩
  | none => exact ⟨rfl, Lexer.isWord_spelling .noneWord⟩

/-- The words among the constants are reserved. -/
theorem atom_ne_name {name : String} (h : IsName name) : (ofLiteral l).atom ≠ .word name := by
  cases l with
  | int | float | string => exact nofun
  | bool b =>
    cases b
    · exact fun word => h.ne_spelling .falseWord (Atom.word.inj word).symm
    · exact fun word => h.ne_spelling .trueWord (Atom.word.inj word).symm
  | none => exact fun word => h.ne_spelling .noneWord (Atom.word.inj word).symm

/-- None of them starts a construction. -/
theorem atom_ne_new : (ofLiteral l).atom ≠ .word Keyword.newWord.spelling := by
  cases l with
  | int | float | string => exact nofun
  | bool b => cases b <;> exact fun word => absurd (Atom.word.inj word) (by decide)
  | none => exact fun word => absurd (Atom.word.inj word) (by decide)

theorem atom_ne_mark {c : Char} : (ofLiteral l).atom ≠ .mark c := by
  cases l <;> exact nofun

/-- A float has a fraction or an exponent. -/
theorem atom_int_ne_float (n : Int64) (x : Float) : (Value.int n).atom ≠ (Value.float x).atom := by
  intro h
  have numeral := Atom.number.inj h
  rcases Number.numeral_not_whole x with fraction | power
  · exact fraction (congrArg Number.Numeral.fraction numeral).symm
  · exact power (congrArg Number.Numeral.power numeral).symm

theorem atom_inj (hl : l.Unsigned) (hk : k.Unsigned) (fl : (ofLiteral l).isInfinite = false)
    (fk : (ofLiteral k).isInfinite = false) (h : (ofLiteral l).atom = (ofLiteral k).atom) :
    l = k := by
  cases l with
  | int n =>
    cases k with
    | int m =>
      have sizes := toDigits_inj (by decide) (by decide)
        (congrArg Number.Numeral.whole (Atom.number.inj h))
      have hn : 0 ≤ n.toInt := hl
      have hm : 0 ≤ m.toInt := hk
      rw [Int64.toInt_inj.1 (by omega : n.toInt = m.toInt)]
    | float y => exact absurd h (atom_int_ne_float n y)
    | string | bool | none => cases h
  | float x =>
    cases k with
    | int m => exact absurd h.symm (atom_int_ne_float m x)
    | float y =>
      have sign : Number.signBit x = Number.signBit y :=
        (isUnsigned_of_unsigned hl).2.trans (isUnsigned_of_unsigned hk).2.symm
      rw [Number.numeral_inj (isUnbounded_of_unsigned hl fl) (isUnbounded_of_unsigned hk fk) sign
        (Atom.number.inj h)]
    | string | bool | none => cases h
  | string s =>
    cases k with
    | string t => rw [Atom.quoted.inj h]
    | int | float | bool | none => cases h
  | bool b =>
    cases k with
    | bool c => cases b <;> cases c <;> first | rfl | exact absurd (Atom.word.inj h) (by decide)
    | none => cases b <;> exact absurd (Atom.word.inj h) (by decide)
    | int | float | string => cases h
  | none =>
    cases k with
    | none => rfl
    | bool c => cases c <;> exact absurd (Atom.word.inj h) (by decide)
    | int | float | string => cases h

end Lowering

/-! ### Words and symbols -/

theorem Builtin.spelling_inj {b c : Builtin} (h : b.spelling = c.spelling) : b = c := by
  have := congrArg ofSpelling? h
  rw [ofSpelling?_spelling, ofSpelling?_spelling] at this
  exact Option.some.inj this

theorem Builtin.isWord_spelling (b : Builtin) : Lexer.IsWord b.spelling := by
  cases b
  all_goals exact ⟨⟨_, _, rfl, rfl⟩, List.all_eq_true.1 rfl⟩

/-- The character before the operand of an operation. -/
def UnaryOp.mark : UnaryOp → Char
  | neg => '-'
  | not => '!'

theorem UnaryOp.toList_symbol (op : UnaryOp) : op.symbol.toList = [op.mark] := by
  cases op <;> rfl

theorem UnaryOp.mark_inj {op op' : UnaryOp} (h : op.mark = op'.mark) : op = op' := by
  revert h
  cases op <;> cases op' <;> decide

theorem BinaryOp.symbol_inj {op op' : BinaryOp} (h : op.symbol = op'.symbol) : op = op' := by
  have find (op : BinaryOp) : all.find? (·.symbol == op.symbol) = some op := by
    cases op <;> decide
  have := find op
  rw [h, find op'] at this
  exact (Option.some.inj this).symm

theorem BinaryOp.symbol_spec (op : BinaryOp) :
    (∀ c ∈ op.symbol.toList, (c != ' ') = true) ∧ op.symbol.toList ≠ ['?'] := by
  cases op <;> exact ⟨List.all_eq_true.1 rfl, by decide⟩

/-! ### Where a tree ends -/

namespace Tree

/-- Nothing of a tree follows. -/
def Ends (cs : List Char) : Prop := ∀ c ∈ cs.head?, c ∈ [' ', ',', ')']

theorem ends_cons {c : Char} (h : c ∈ [' ', ',', ')']) (cs : List Char) : Ends (c :: cs) := by
  rintro _ ⟨⟩
  exact h

theorem Ends.ne_point {cs ds : List Char} (h : Ends cs) : cs ≠ '.' :: ds := by
  rintro rfl
  have := h '.' rfl
  simp at this

/-- A member or a call may follow, but nothing else of a tree. -/
def Continues (cs : List Char) : Prop :=
  Ends cs ∨ ∃ c rest, cs = '.' :: c :: rest ∧ isIdentStart c = true

theorem Continues.stops {cs : List Char} (h : Continues cs) : Stops cs := by
  rcases h with ends | ⟨c, rest, rfl, start⟩
  · cases cs with
    | nil => trivial
    | cons c cs =>
      refine Lexer.stops_cons ?_ cs
      have marks : [' ', ',', ')'] ⊆ [' ', ',', '(', ')', '[', ']', ':'] := by simp
      exact marks (ends c rfl)
  · refine ⟨rfl, by decide, by decide, fun _ d hd => ?_⟩
    cases hd
    exact Lexer.isDigit_of_isIdentStart start

/-- Starts with an operator before its operand. -/
def isPrefixed : Tree → Bool
  | unary .. => true
  | _ => false

/-- Is a member or a call. -/
def isLinked : Tree → Bool
  | member .. | call .. => true
  | _ => false

/-- Names and constants are those that a source can write, no float is beyond all bounds, and
members and calls are applied to no operation before an operand. -/
inductive Legible : Tree → Prop where
  | const {l : Source.Literal} (h : l.Unsigned)
    (finite : (Lowering.ofLiteral l).isInfinite = false) : Legible (const (Lowering.ofLiteral l))
  | param {name : String} (h : IsName name) : Legible (param name)
  | member {base : Tree} {name : String} (hbase : Legible base) (hplain : base.isPrefixed = false)
    (hname : IsName name) : Legible (member base name)
  | call {receiver : Tree} {method : Builtin} {args : List Tree} (hreceiver : Legible receiver)
    (hplain : receiver.isPrefixed = false) (hargs : ∀ a ∈ args, Legible a) :
    Legible (call receiver method args)
  | cond {test yes no : Tree} (htest : Legible test) (hyes : Legible yes) (hno : Legible no) :
    Legible (cond test yes no)
  | binary {op : BinaryOp} {lhs rhs : Tree} (hlhs : Legible lhs) (hrhs : Legible rhs) :
    Legible (binary op lhs rhs)
  | unary {op : UnaryOp} {operand : Tree} (hoperand : Legible operand) :
    Legible (unary op operand)
  | init {typeName : String} {bindings : List (String × Tree)} (htype : Name.IsPath typeName)
    (hnames : ∀ b ∈ bindings, IsName b.1) (hvalues : ∀ b ∈ bindings, Legible b.2) :
    Legible (init typeName bindings)

/-! ### The parts of a text -/

def chars (t : Tree) : List Char := t.text.toList

/-- A field and its value. -/
def entryChars (b : String × Tree) : List Char := b.1.toList ++ ' ' :: '=' :: ' ' :: b.2.chars

/-- Each part after a comma. -/
def followed {α : Type} (part : α → List Char) (items : List α) : List Char :=
  items.flatMap fun a => ',' :: ' ' :: part a

theorem followed_cons {α : Type} (part : α → List Char) (a : α) (rest : List α) :
    followed part (a :: rest) = ',' :: ' ' :: (part a ++ followed part rest) := rfl

/-- The parts with commas between them. -/
def listed {α : Type} (part : α → List Char) : List α → List Char
  | [] => []
  | a :: rest => part a ++ followed part rest

theorem followed_of_ne_nil {α : Type} {part : α → List Char} {items : List α} (h : items ≠ []) :
    followed part items = ',' :: ' ' :: listed part items := by
  cases items with
  | nil => exact absurd rfl h
  | cons a rest => rfl

theorem toList_intercalate {α : Type} {part : α → List Char} {text : α → String}
    (h : ∀ a, (text a).toList = part a) (items : List α) :
    (String.intercalate ", " (items.map text)).toList = listed part items := by
  cases items with
  | nil => rfl
  | cons a rest =>
    rw [listed, ← h]
    induction rest generalizing a with
    | nil => simp [followed]
    | cons b rest ih =>
      rw [List.map_cons, List.map_cons, String.intercalate_cons_cons, String.toList_append,
        String.toList_append, ← List.map_cons, ih b, followed_cons, h b, List.append_assoc]
      rfl

theorem argTexts_eq (args : List Tree) : argTexts args = args.map text := by
  induction args with
  | nil => rfl
  | cons a rest ih => rw [argTexts, ih, List.map_cons]

theorem toList_argTexts (args : List Tree) :
    (String.intercalate ", " (argTexts args)).toList = listed chars args := by
  rw [argTexts_eq]
  exact toList_intercalate (fun _ => rfl) args

theorem bindingTexts_eq (bindings : List (String × Tree)) :
    bindingTexts bindings = bindings.map fun b => b.1 ++ " = " ++ b.2.text := by
  induction bindings with
  | nil => rfl
  | cons b rest ih => rw [bindingTexts, ih, List.map_cons]

/-- The atom that a text starts with. -/
def opening : Tree → Atom
  | const v => v.atom
  | param name => .word name
  | member base _ => opening base
  | call receiver .. => opening receiver
  | cond .. | binary .. => .mark '('
  | unary op _ => .mark op.mark
  | init .. => .word Keyword.newWord.spelling

/-- What comes after that atom. -/
def inner : Tree → List Char
  | const _ | param _ => []
  | member base name => inner base ++ '.' :: name.toList
  | call receiver method args =>
    inner receiver ++ '.' :: (method.spelling.toList ++ '(' :: (listed chars args ++ [')']))
  | cond test yes no =>
    test.chars ++ ' ' :: '?' :: ' ' :: (yes.chars ++ ' ' :: ':' :: ' ' :: (no.chars ++ [')']))
  | binary op lhs rhs => lhs.chars ++ ' ' :: (op.symbol.toList ++ ' ' :: (rhs.chars ++ [')']))
  | unary _ operand => operand.chars
  | init typeName bindings =>
    ' ' :: (typeName.toList ++ ' ' :: '\x7b' ::
      if bindings.isEmpty then ['\x7d'] else ' ' :: (listed entryChars bindings ++ [' ', '\x7d']))

theorem chars_init (typeName : String) (bindings : List (String × Tree)) :
    (init typeName bindings).chars =
      (opening (init typeName bindings)).chars ++ (init typeName bindings).inner := by
  have entries : (String.intercalate ", " (bindingTexts bindings)).toList =
      listed entryChars bindings := by
    rw [bindingTexts_eq]
    exact toList_intercalate (fun b => by simp [entryChars, chars]) bindings
  have none : (bindingTexts bindings).isEmpty = bindings.isEmpty := by
    rw [bindingTexts_eq]
    exact List.isEmpty_map
  rw [chars, text, Value.braces, none, opening, inner]
  split <;> simp [entries, Atom.chars, Keyword.spelling]

theorem Legible.chars_eq {t : Tree} (h : t.Legible) : t.chars = t.opening.chars ++ t.inner := by
  induction h with
  | const h finite =>
    rw [chars, text, (Lowering.atom_spec h finite).1, opening, inner, List.append_nil]
  | param => exact (List.append_nil _).symm
  | @member base name _ _ _ ih =>
    rw [opening, inner, ← List.append_assoc, ← ih]
    simp [chars, text]
  | @call receiver method args _ _ _ ih =>
    rw [opening, inner, ← List.append_assoc, ← ih, ← toList_argTexts]
    simp [chars, text]
  | cond => simp [chars, text, opening, inner, Atom.chars]
  | binary => simp [chars, text, opening, inner, Atom.chars]
  | @unary op operand => simp [chars, text, opening, inner, Atom.chars, op.toList_symbol]
  | init => exact chars_init ..

theorem Legible.opening_proper {t : Tree} (h : t.Legible) : t.opening.Proper := by
  induction h with
  | const h finite => exact (Lowering.atom_spec h finite).2
  | param h => exact h.toIsWord
  | member _ _ _ ih => exact ih
  | call _ _ _ ih => exact ih
  | cond => exact List.mem_cons_self
  | binary => exact List.mem_cons_self
  | @unary op => cases op <;> simp [opening, Atom.Proper, UnaryOp.mark]
  | init => exact Lexer.isWord_spelling _

/-- No text starts with a closing parenthesis. -/
theorem Legible.ne_close {t : Tree} (h : t.Legible) {cs ds : List Char} :
    t.chars ++ cs ≠ ')' :: ds := by
  rw [h.chars_eq, List.append_assoc]
  exact h.opening_proper.ne_close

/-- The text of an operand tells where its first atom ends. -/
theorem Legible.before {t : Tree} (h : t.Legible) (hl : t.isLinked = false) {cs : List Char}
    (hc : Continues cs) : t.opening.Before (t.inner ++ cs) := by
  cases h with
  | const | param => exact Atom.before_of_stops _ hc.stops
  | member | call => cases hl
  | cond | binary | unary => trivial
  | init => exact Lexer.stops_cons (by simp) _

end Tree
end StagedMapping
