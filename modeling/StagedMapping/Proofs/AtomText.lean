import StagedMapping.Proofs.Numerals

/-! The smallest texts of trees. An `Atom` is a word, a number, a quoted text or a mark. Each of
them shows where it ends, a word or a number before anything that cannot go on with it, and no
two of them have one text (`Atom.cancel`). -/
namespace StagedMapping
open Lexer (Stops isIdentPart isIdentStart IsWord)

/-! ### Quoted texts -/

namespace Text

/-- The character that a backslash and a letter stand for. -/
def shortEscape : Char → Option Char
  | '"' => some '"'
  | '\\' => some '\\'
  | 'n' => some '\n'
  | 'r' => some '\r'
  | 't' => some '\t'
  | '0' => some (Char.ofNat 0)
  | _ => none

/-- A character stands for itself, or is a backslash with a letter or with a code point. -/
theorem escapeChar_cases (c : Char) :
    (∃ k, shortEscape k = some c ∧ escapeChar c = ['\\', k]) ∨
      (c ≠ '\\' ∧ c ≠ '"' ∧ escapeChar c = [c]) ∨ escapeChar c = codePointEscape c := by
  unfold escapeChar
  split
  · rename_i h
    exact .inl ⟨'"', by rw [h]; rfl, rfl⟩
  split
  · rename_i h
    exact .inl ⟨'\\', by rw [h]; rfl, rfl⟩
  split
  · rename_i h
    exact .inl ⟨'n', by rw [h]; rfl, rfl⟩
  split
  · rename_i h
    exact .inl ⟨'r', by rw [h]; rfl, rfl⟩
  split
  · rename_i h
    exact .inl ⟨'t', by rw [h]; rfl, rfl⟩
  split
  · rename_i h
    exact .inl ⟨'0', by rw [show c = Char.ofNat 0 from Char.toNat_inj.1 h]; rfl, rfl⟩
  split
  · rename_i quote backslash _ _ _ _ _
    exact .inr (.inl ⟨backslash, quote, rfl⟩)
  · exact .inr (.inr rfl)

theorem codePointEscape_cancel {c d : Char} {cs ds : List Char}
    (h : codePointEscape c ++ cs = codePointEscape d ++ ds) : c = d ∧ cs = ds := by
  have digits {n : ℕ} : ∀ c ∈ Nat.toDigits 16 n, (c != '\x7d') = true :=
    Lexer.forall_mem_toDigits (by decide) n
  simp only [codePointEscape, List.append_assoc, List.cons_append, List.nil_append,
    List.cons.injEq, true_and] at h
  obtain ⟨same, rest⟩ := span_cancel digits digits (by rintro _ ⟨⟩; rfl) (by rintro _ ⟨⟩; rfl) h
  exact ⟨Char.toNat_inj.1 (toDigits_inj (by decide) (by decide) same), (List.cons.inj rest).2⟩

theorem escapeChar_cancel {c d : Char} {cs ds : List Char}
    (h : escapeChar c ++ cs = escapeChar d ++ ds) : c = d ∧ cs = ds := by
  rcases escapeChar_cases c with ⟨k, hk, hc⟩ | ⟨plain, -, hc⟩ | hc <;> rw [hc] at h <;>
    rcases escapeChar_cases d with ⟨l, hl, hd⟩ | ⟨plain', -, hd⟩ | hd <;> rw [hd] at h
  · cases h
    rw [hk] at hl
    exact ⟨Option.some.inj hl, rfl⟩
  · exact absurd (List.cons.inj h).1.symm plain'
  · cases (List.cons.inj (List.cons.inj h).2).1
    cases hk
  · exact absurd (List.cons.inj h).1 plain
  · cases h
    exact ⟨rfl, rfl⟩
  · exact absurd (List.cons.inj h).1 plain
  · cases (List.cons.inj (List.cons.inj h).2).1
    cases hl
  · exact absurd (List.cons.inj h).1.symm plain'
  · exact codePointEscape_cancel h

theorem quote_ne_escapeChar {c : Char} {cs ds : List Char} : '"' :: cs ≠ escapeChar c ++ ds := by
  intro h
  rcases escapeChar_cases c with ⟨k, -, hc⟩ | ⟨-, quote, hc⟩ | hc <;> rw [hc] at h
  · cases (List.cons.inj h).1
  · exact quote (List.cons.inj h).1.symm
  · cases (List.cons.inj h).1

/-- A quoted text ends at its quote. -/
theorem quoted_cancel {s t cs ds : List Char}
    (h : s.flatMap escapeChar ++ '"' :: cs = t.flatMap escapeChar ++ '"' :: ds) :
    s = t ∧ cs = ds := by
  induction s generalizing t with
  | nil =>
    cases t with
    | nil => exact ⟨rfl, (List.cons.inj h).2⟩
    | cons d t =>
      rw [List.flatMap_cons, List.append_assoc] at h
      exact absurd h quote_ne_escapeChar
  | cons c s ih =>
    rw [List.flatMap_cons, List.append_assoc] at h
    cases t with
    | nil => exact absurd h.symm quote_ne_escapeChar
    | cons d t =>
      rw [List.flatMap_cons, List.append_assoc] at h
      obtain ⟨rfl, tail⟩ := escapeChar_cancel h
      obtain ⟨rfl, rest⟩ := ih tail
      exact ⟨rfl, rest⟩

end Text

/-! ### Atoms -/

/-- The smallest parts of a text: words, numbers and quoted texts, and the marks before the
operands of an operation. -/
inductive Atom where
  | word (word : String)
  | number (numeral : Number.Numeral)
  | quoted (text : String)
  | mark (mark : Char)

namespace Atom

def chars : Atom → List Char
  | word w => w.toList
  | number n => n.chars
  | quoted s => (Text.quote s).toList
  | mark c => [c]

/-- Words are words, numerals are proper, and marks are marks. -/
def Proper : Atom → Prop
  | word w => IsWord w
  | number n => n.Proper
  | quoted _ => True
  | mark c => c ∈ ['(', '-', '!']

variable {a b : Atom} {cs ds : List Char}

/-- What an atom is, without what it says. -/
inductive Kind where
  | word
  | number
  | quoted
  | mark
  deriving DecidableEq

def kind : Atom → Kind
  | word _ => .word
  | number _ => .number
  | quoted _ => .quoted
  | mark _ => .mark

/-- What an atom is that starts with this character. -/
def Kind.ofStart (c : Char) : Kind :=
  if isIdentStart c then .word
  else if c.isDigit then .number
  else if c = '"' then .quoted
  else .mark

theorem Proper.starts (h : a.Proper) :
    ∃ c rest, a.chars = c :: rest ∧ Kind.ofStart c = a.kind := by
  cases a with
  | word w =>
    obtain ⟨c, rest, chars, start⟩ := h.start
    exact ⟨c, rest, chars, if_pos start⟩
  | number n =>
    cases hw : n.whole with
    | nil => exact absurd hw h.ne_nil
    | cons c rest =>
      have chars : (number n).chars = c :: (rest ++ (n.fractionChars ++ n.powerChars)) := by
        rw [chars, Number.Numeral.chars, hw, List.cons_append]
      have digit : c.isDigit = true := h.whole c (by rw [hw]; exact List.mem_cons_self)
      have start : ¬ isIdentStart c = true := fun start => by
        rw [Lexer.isDigit_of_isIdentStart start] at digit
        cases digit
      exact ⟨c, _, chars, (if_neg start).trans (if_pos digit)⟩
  | quoted s => exact ⟨'"', _, Lexer.toList_quote s, rfl⟩
  | mark c =>
    refine ⟨c, [], rfl, ?_⟩
    simp only [Proper, List.mem_cons, List.not_mem_nil, or_false] at h
    rcases h with rfl | rfl | rfl <;> rfl

theorem word_cancel {v w : String} (hv : IsWord v) (hw : IsWord w) (hc : Stops cs)
    (hd : Stops ds) (h : v.toList ++ cs = w.toList ++ ds) : v = w ∧ cs = ds := by
  obtain ⟨same, rest⟩ := span_cancel hv.parts hw.parts hc.identPart hd.identPart h
  exact ⟨String.toList_inj.1 same, rest⟩

/-- A text that an atom ends before. -/
def Before : Atom → List Char → Prop
  | word _, cs | number _, cs => Stops cs
  | quoted _, _ | mark _, _ => True

theorem before_of_stops (a : Atom) (h : Stops cs) : a.Before cs := by
  cases a with
  | word | number => exact h
  | quoted | mark => trivial

/-- An atom shows where it ends, and no two have one text. -/
theorem cancel (ha : a.Proper) (hb : b.Proper) (hc : a.Before cs) (hd : b.Before ds)
    (h : a.chars ++ cs = b.chars ++ ds) : a = b ∧ cs = ds := by
  have kinds : a.kind = b.kind := by
    obtain ⟨c, rest, chars, start⟩ := ha.starts
    obtain ⟨d, more, chars', start'⟩ := hb.starts
    rw [chars, chars'] at h
    cases (List.cons.inj h).1
    exact start.symm.trans start'
  cases a <;> cases b <;> try cases kinds
  case word.word v w =>
    obtain ⟨rfl, rest⟩ := word_cancel ha hb hc hd h
    exact ⟨rfl, rest⟩
  case number.number n m =>
    obtain ⟨rfl, rest⟩ := Number.Numeral.cancel ha hb hc hd h
    exact ⟨rfl, rest⟩
  case quoted.quoted s t =>
    rw [chars, chars, Lexer.toList_quote, Lexer.toList_quote, List.cons_append, List.cons_append,
      List.append_assoc, List.append_assoc] at h
    obtain ⟨same, rest⟩ := Text.quoted_cancel (List.cons.inj h).2
    exact ⟨by rw [String.toList_inj.1 same], rest⟩
  case mark.mark c d =>
    cases h
    exact ⟨rfl, rfl⟩

/-- No atom starts with a closing parenthesis. -/
theorem Proper.ne_close (h : a.Proper) : a.chars ++ cs ≠ ')' :: ds := by
  intro close
  obtain ⟨c, rest, chars, start⟩ := h.starts
  rw [chars, List.cons_append] at close
  cases (List.cons.inj close).1
  cases a with
  | mark c =>
    cases chars
    simp [Proper] at h
  | word | number | quoted => cases start

end Atom
end StagedMapping
