import Mathlib
import StagedMapping.Proofs.TokenPlaces

/-! The layout of a token stream. `Layout.Step` says which token may follow in which phase:
a phase counts the open blocks and says how far the line is. The lexer keeps to it
(`State.step_reads`, `State.run_reads`), and what is known of the layout of a stream follows
from the phases alone (`Layout.Reads.laidOut`). -/
namespace StagedMapping

namespace TokenKind

/-- Opens a bracket. -/
def opens : TokenKind → Bool
  | punctuation .leftParen | punctuation .leftBracket => true
  | _ => false

/-- Closes a bracket. -/
def closes : TokenKind → Bool
  | punctuation .rightParen | punctuation .rightBracket => true
  | _ => false

end TokenKind

/-! ### Well laid out streams -/

namespace Layout

/-- A logical line starts after these tokens. -/
def AtLineStart (front : List TokenKind) : Prop :=
  front = [] ∨ ∃ before, front = before ++ [.newline]

/-- A logical line without its line break: one indent or some dedents, and what it says. -/
def IsLine (line : List TokenKind) : Prop :=
  ∃ opening content, line = opening ++ content ∧
    (opening = [.indent] ∨ ∃ n, opening = List.replicate n .dedent) ∧
    content ≠ [] ∧ ∀ k ∈ content, k.isLayout = false

end Layout

open Layout in
/-- A stream of tokens with the layout that a reader of blocks relies on. -/
structure LaidOut (ks : List TokenKind) : Prop where
  /-- The end mark is the last token and no other. -/
  ended : ∃ front, ks = front ++ [.eof] ∧ .eof ∉ front
  /-- No block is closed that is not open. -/
  nested : ∀ front, front <+: ks →
    front.countP TokenKind.isDedent ≤ front.countP TokenKind.isIndent
  /-- Every block is closed. -/
  balanced : ks.countP TokenKind.isDedent = ks.countP TokenKind.isIndent
  /-- A line break ends what is no layout. -/
  broken : ∀ front back, ks = front ++ .newline :: back → ∃ k ∈ front.getLast?, k.isLayout = false
  /-- From one line break to the next there is one line. -/
  lines : ∀ front line back, ks = front ++ (line ++ .newline :: back) → AtLineStart front →
    .newline ∉ line → IsLine line
  /-- The last line has its line break: only dedents stand between it and the end mark. -/
  closing : ∀ front back, ks = front ++ back → AtLineStart front → .newline ∉ back →
    ∃ n, back = List.replicate n .dedent ++ [.eof]
  /-- No bracket is closed that is not open. -/
  bracketed : ∀ front, front <+: ks → front.countP TokenKind.closes ≤ front.countP TokenKind.opens
  /-- Every bracket is closed. -/
  matched : ks.countP TokenKind.closes = ks.countP TokenKind.opens
  /-- As long as a bracket is open there is no layout. -/
  enclosed : ∀ front left inner back, ks = front ++ left :: (inner ++ back) → left.opens = true →
    (∀ part, part <+: inner → part.countP TokenKind.closes ≤ part.countP TokenKind.opens) →
    ∀ k ∈ inner, k.isLayout = false

/-! ### Phases -/

namespace Layout

/-- How far a line is. -/
inductive Place where
  /-- Nothing of the line is there. -/
  | fresh
  | indented
  | dedented
  /-- The line has tokens; so many of its brackets are open. -/
  | within (depth : Nat)
  /-- The end mark is there. -/
  | ended

/-- Blocks may still be closed before the line. -/
inductive Place.Waiting : Place → Prop where
  | fresh : Waiting .fresh
  | dedented : Waiting .dedented

/-- The line has begun. -/
inductive Place.Opened : Place → Prop where
  | indented : Opened .indented
  | within (depth : Nat) : Opened (.within depth)

def Place.depth : Place → Nat
  | within depth => depth
  | _ => 0

/-- The open blocks and how far the line is. -/
structure Phase where
  blocks : Nat
  place : Place

/-- The next token, and the phase after it. -/
inductive Step : Phase → TokenKind → Phase → Prop where
  | indent (n : Nat) : Step ⟨n, .fresh⟩ .indent ⟨n + 1, .indented⟩
  | dedent (n : Nat) {p : Place} (hp : p.Waiting) :
    Step ⟨n + 1, p⟩ .dedent ⟨n, .dedented⟩
  | content (n : Nat) {p : Place} {k : TokenKind} {depth : Nat} (hp : p ≠ .ended)
    (hk : k.isLayout = false) (he : k.isEof = false)
    (balance : p.depth + (if k.opens then 1 else 0) = depth + (if k.closes then 1 else 0)) :
    Step ⟨n, p⟩ k ⟨n, .within depth⟩
  | newline (n : Nat) : Step ⟨n, .within 0⟩ .newline ⟨n, .fresh⟩
  | eof {p : Place} (hp : p.Waiting) : Step ⟨0, p⟩ .eof ⟨0, .ended⟩

/-- The tokens lead from one phase to another. -/
inductive Reads : Phase → List TokenKind → Phase → Prop where
  | nil (φ : Phase) : Reads φ [] φ
  | cons {φ ψ χ : Phase} {k : TokenKind} {ks : List TokenKind} (step : Step φ k ψ)
    (rest : Reads ψ ks χ) : Reads φ (k :: ks) χ

variable {φ ψ χ : Phase} {k : TokenKind} {ks ls : List TokenKind} {n : Nat}

namespace Reads

theorem single (h : Step φ k ψ) : Reads φ [k] ψ := .cons h (.nil ψ)

theorem append (h : Reads φ ks ψ) (h' : Reads ψ ls χ) : Reads φ (ks ++ ls) χ := by
  induction h with
  | nil => exact h'
  | cons step _ ih => exact .cons step (ih h')

theorem split (h : Reads φ (ks ++ ls) χ) : ∃ ψ, Reads φ ks ψ ∧ Reads ψ ls χ := by
  induction ks generalizing φ with
  | nil => exact ⟨φ, .nil φ, h⟩
  | cons k ks ih =>
    cases h with
    | cons step rest =>
      obtain ⟨ψ, front, back⟩ := ih rest
      exact ⟨ψ, .cons step front, back⟩

theorem head (h : Reads φ (k :: ks) χ) : ∃ ψ, Step φ k ψ ∧ Reads ψ ks χ := by
  cases h with
  | cons step rest => exact ⟨_, step, rest⟩

theorem dedents (n m : Nat) {p : Place} (hp : p.Waiting) :
    ∃ q, Reads ⟨n + m, p⟩ (List.replicate m .dedent) ⟨n, q⟩ ∧ q.Waiting := by
  induction m generalizing p with
  | zero => exact ⟨p, .nil _, hp⟩
  | succ m ih =>
    obtain ⟨q, rest, hq⟩ := ih .dedented
    exact ⟨q, .cons (.dedent (n + m) hp) rest, hq⟩

end Reads

/-! ### What the phases count -/

theorem blocks_of_isLayout (hk : k.isLayout = false) : k.isIndent = false ∧ k.isDedent = false := by
  cases k <;> first | exact ⟨rfl, rfl⟩ | cases hk

theorem closes_of_opens (hk : k.opens = true) : k.closes = false := by
  unfold TokenKind.opens at hk
  split at hk <;> first | rfl | cases hk

/-- The open blocks are the indents without the dedents. -/
theorem Reads.blocks (h : Reads φ ks ψ) :
    φ.blocks + ks.countP TokenKind.isIndent = ψ.blocks + ks.countP TokenKind.isDedent := by
  induction h with
  | nil => rfl
  | cons step _ ih =>
    rw [List.countP_cons, List.countP_cons]
    cases step with
    | content _ _ hk =>
      obtain ⟨indent, dedent⟩ := blocks_of_isLayout hk
      rw [indent, dedent]
      exact ih
    | indent | dedent =>
      simp only [TokenKind.isIndent, TokenKind.isDedent, if_true] at ih ⊢
      simp only [Bool.false_eq_true, if_false]
      omega
    | newline | eof => exact ih

/-- The open brackets are those opened without those closed. -/
theorem Reads.depth (h : Reads φ ks ψ) :
    φ.place.depth + ks.countP TokenKind.opens = ψ.place.depth + ks.countP TokenKind.closes := by
  induction h with
  | nil => rfl
  | cons step _ ih =>
    rw [List.countP_cons, List.countP_cons]
    cases step with
    | content _ _ _ _ balance =>
      simp only [Place.depth] at ih balance ⊢
      omega
    | dedent _ hp | eof hp => cases hp <;> exact ih
    | indent | newline => exact ih

/-! ### What a token says of the phases beside it -/

theorem Step.depth_of_isLayout (h : Step φ k ψ) (hk : k.isLayout = true) : φ.place.depth = 0 := by
  cases h with
  | indent | newline => rfl
  | dedent _ hp => cases hp <;> rfl
  | content _ _ hk' => rw [hk'] at hk; cases hk
  | eof => cases hk

theorem Step.of_within {d : Nat} (h : Step φ k ψ) (hψ : ψ.place = .within d) :
    k.isLayout = false ∧ k.isEof = false := by
  cases h with
  | content _ _ hk he => exact ⟨hk, he⟩
  | _ => cases hψ

theorem Step.of_newline (h : Step φ .newline ψ) : φ.place = .within 0 ∧ ψ.place = .fresh := by
  cases h with
  | newline => exact ⟨rfl, rfl⟩
  | content _ _ hk => cases hk

theorem Step.of_fresh (h : Step φ k ψ) (hψ : ψ.place = .fresh) : k = .newline := by
  cases h with
  | newline => rfl
  | _ => cases hψ

theorem Step.of_ended (h : Step φ k ψ) (hψ : ψ.place = .ended) : k = .eof := by
  cases h with
  | eof => rfl
  | _ => cases hψ

theorem Step.of_eof (h : Step φ .eof ψ) : ψ.place = .ended := by
  cases h with
  | eof => rfl
  | content _ _ _ he => cases he

theorem Step.not_ended (h : Step φ k ψ) : φ.place ≠ .ended := by
  cases h with
  | dedent _ hp | eof hp => cases hp <;> exact nofun
  | content _ hp => exact hp
  | _ => exact nofun

theorem Reads.eq_nil_of_ended (h : Reads φ ks ψ) (hφ : φ.place = .ended) : ks = [] := by
  cases h with
  | nil => rfl
  | cons step => exact absurd hφ step.not_ended

/-- The last token leads to the last phase. -/
theorem Reads.last (h : Reads φ ks ψ) (hne : ks ≠ []) :
    ∃ front k χ, ks = front ++ [k] ∧ Reads φ front χ ∧ Step χ k ψ := by
  obtain ⟨front, k, rfl⟩ := (List.eq_nil_or_concat ks).resolve_left hne
  rw [List.concat_eq_append] at h ⊢
  obtain ⟨χ, before, last⟩ := h.split
  obtain ⟨_, step, rest⟩ := last.head
  cases rest
  exact ⟨front, k, χ, rfl, before, step⟩

theorem Reads.layout_of_fresh (h : Reads φ ks ψ) (hψ : ψ.place = .fresh) :
    ks.getLast?.all (·.isLayout) = true := by
  by_cases hne : ks = []
  · rw [hne]
    rfl
  · obtain ⟨front, k, χ, rfl, -, last⟩ := h.last hne
    obtain rfl := last.of_fresh hψ
    rw [List.getLast?_concat]
    rfl

theorem Reads.content_of_within {d : Nat} (h : Reads φ ks ψ) (hψ : ψ.place = .within d)
    (hφ : φ.place ≠ .within d) : ¬ ks.getLast?.all (·.isLayout) = true := by
  have hne : ks ≠ [] := by
    rintro rfl
    cases h
    exact hφ hψ
  obtain ⟨front, k, χ, rfl, -, last⟩ := h.last hne
  rw [List.getLast?_concat, Option.all_some, (last.of_within hψ).1]
  exact nofun

/-- Only the last token is the end mark. -/
theorem Reads.ended (h : Reads φ ks ψ) (hφ : φ.place ≠ .ended) (hψ : ψ.place = .ended) :
    ∃ front, ks = front ++ [.eof] ∧ .eof ∉ front := by
  have hne : ks ≠ [] := by
    rintro rfl
    cases h
    exact hφ hψ
  obtain ⟨front, k, χ, rfl, before, last⟩ := h.last hne
  obtain rfl := last.of_ended hψ
  refine ⟨front, rfl, fun mem => ?_⟩
  obtain ⟨left, right, rfl⟩ := List.append_of_mem mem
  obtain ⟨_, -, after⟩ := before.split
  obtain ⟨_, mark, after⟩ := after.head
  obtain rfl := after.eq_nil_of_ended mark.of_eof
  cases after
  exact last.not_ended mark.of_eof

/-! ### Lines -/

/-- In a line that has begun all tokens up to its line break are content. -/
theorem Reads.content (h : Reads φ ks ψ) (hφ : φ.place.Opened) (hn : .newline ∉ ks) :
    (∀ k ∈ ks, k.isLayout = false) ∧ ψ.place.Opened := by
  induction h with
  | nil => exact ⟨by simp, hφ⟩
  | cons step _ ih =>
    rw [List.mem_cons, not_or] at hn
    cases step with
    | content _ _ hk =>
      obtain ⟨rest, ends⟩ := ih (.within _) hn.2
      exact ⟨List.forall_mem_cons.2 ⟨hk, rest⟩, ends⟩
    | newline => exact absurd rfl hn.1
    | indent => cases hφ
    | dedent _ hp | eof hp => cases hp <;> cases hφ

/-- Dedents, and then the content of a line or the end mark. -/
structure Reads.Dedented (ks : List TokenKind) (p : Place) : Prop where
  line : ∀ d, p = .within d → ∃ n content, ks = List.replicate n .dedent ++ content ∧
    content ≠ [] ∧ ∀ k ∈ content, k.isLayout = false
  tail : p = .ended → ∃ n, ks = List.replicate n .dedent ++ [.eof]

theorem Reads.Dedented.cons {p : Place} (h : Dedented ks p) : Dedented (.dedent :: ks) p where
  line d hp := by
    obtain ⟨n, content, rfl, line⟩ := h.line d hp
    exact ⟨n + 1, content, rfl, line⟩
  tail hp := by
    obtain ⟨n, rfl⟩ := h.tail hp
    exact ⟨n + 1, rfl⟩

/-- Content is a line without dedents. -/
theorem Reads.Dedented.of_content {p : Place} (hk : k.isLayout = false)
    (h : (∀ k ∈ ks, k.isLayout = false) ∧ p.Opened) : Dedented (k :: ks) p where
  line _ _ := ⟨0, k :: ks, rfl, by simp, List.forall_mem_cons.2 ⟨hk, h.1⟩⟩
  tail hp := by
    rw [hp] at h
    cases h.2

theorem Reads.dedented (h : Reads φ ks ψ) (hφ : φ.place = .dedented) (hn : .newline ∉ ks) :
    Dedented ks ψ.place := by
  induction h with
  | nil =>
    rw [hφ]
    exact ⟨nofun, nofun⟩
  | cons step rest ih =>
    rw [List.mem_cons, not_or] at hn
    cases step with
    | dedent => exact (ih rfl hn.2).cons
    | content _ _ hk => exact .of_content hk (rest.content (.within _) hn.2)
    | newline | indent => cases hφ
    | eof =>
      obtain rfl := rest.eq_nil_of_ended rfl
      cases rest
      exact ⟨nofun, fun _ => ⟨0, rfl⟩⟩

/-- From a line break to the next one there is a line, and from the last one dedents and the
end mark. -/
theorem Reads.line (h : Reads φ ks ψ) (hφ : φ.place = .fresh) (hn : .newline ∉ ks) :
    (∀ d, ψ.place = .within d → IsLine ks) ∧
      (ψ.place = .ended → ∃ n, ks = List.replicate n .dedent ++ [.eof]) := by
  cases h with
  | nil =>
    rw [hφ]
    exact ⟨nofun, nofun⟩
  | cons step rest =>
    rw [List.mem_cons, not_or] at hn
    have line : ∀ {ks : List TokenKind}, Dedented ks ψ.place →
        (∀ d, ψ.place = .within d → IsLine ks) ∧
          (ψ.place = .ended → ∃ n, ks = List.replicate n .dedent ++ [.eof]) := by
      refine fun dedented => ⟨fun d hd => ?_, dedented.tail⟩
      obtain ⟨n, content, rfl, hne, inline⟩ := dedented.line d hd
      exact ⟨_, content, rfl, .inr ⟨n, rfl⟩, hne, inline⟩
    cases step with
    | indent =>
      obtain ⟨inline, opened⟩ := rest.content .indented hn.2
      refine ⟨fun d hd => ⟨[.indent], _, rfl, .inl rfl, ?_, inline⟩, fun ended => ?_⟩
      · rintro rfl
        cases rest
        cases hd
      · rw [ended] at opened
        cases opened
    | dedent => exact line (rest.dedented rfl hn.2).cons
    | content _ _ hk => exact line (.of_content hk (rest.content (.within _) hn.2))
    | newline => cases hφ
    | eof =>
      obtain rfl := rest.eq_nil_of_ended rfl
      cases rest
      exact ⟨nofun, fun _ => ⟨0, rfl⟩⟩

theorem Reads.fresh_of_atLineStart (h : Reads φ ks ψ) (hφ : φ.place = .fresh)
    (hs : AtLineStart ks) : ψ.place = .fresh := by
  obtain rfl | ⟨before, rfl⟩ := hs
  · cases h
    exact hφ
  · obtain ⟨_, -, last⟩ := h.split
    obtain ⟨_, step, rest⟩ := last.head
    cases rest
    exact step.of_newline.2

/-! ### The whole stream -/

/-- A stream that leads from nothing to the end mark is well laid out. -/
theorem Reads.laidOut (h : Reads ⟨0, .fresh⟩ ks ⟨0, .ended⟩) : LaidOut ks where
  ended := h.ended nofun rfl
  nested front hf := by
    obtain ⟨back, rfl⟩ := hf
    obtain ⟨ψ, before, -⟩ := h.split
    have := before.blocks
    dsimp only at this
    omega
  balanced := by
    have := h.blocks
    dsimp only at this
    omega
  broken front back hks := by
    subst hks
    obtain ⟨ψ, before, after⟩ := h.split
    obtain ⟨_, step, -⟩ := after.head
    have within := step.of_newline.1
    have hne : front ≠ [] := by
      rintro rfl
      cases before
      cases within
    obtain ⟨front, k, χ, rfl, -, last⟩ := before.last hne
    exact ⟨k, by simp, (last.of_within within).1⟩
  lines front line back hks hs hn := by
    subst hks
    obtain ⟨φ, before, after⟩ := h.split
    obtain ⟨ψ, line, after⟩ := after.split
    obtain ⟨_, step, -⟩ := after.head
    exact (line.line (before.fresh_of_atLineStart rfl hs) hn).1 0 step.of_newline.1
  closing front back hks hs hn := by
    subst hks
    obtain ⟨φ, before, after⟩ := h.split
    exact (after.line (before.fresh_of_atLineStart rfl hs) hn).2 rfl
  bracketed front hf := by
    obtain ⟨back, rfl⟩ := hf
    obtain ⟨ψ, before, -⟩ := h.split
    have := before.depth
    simp only [Place.depth] at this
    omega
  matched := by
    have := h.depth
    simp only [Place.depth] at this
    omega
  enclosed front left inner back hks hleft hopen k hk := by
    subst hks
    refine Bool.eq_false_iff.2 fun layout => ?_
    obtain ⟨part, rest, rfl⟩ := List.append_of_mem hk
    obtain ⟨φ, -, after⟩ := h.split
    obtain ⟨χ, bracket, after⟩ := after.head
    obtain ⟨ψ, inside, -⟩ := after.split
    obtain ⟨ω, inside, after⟩ := inside.split
    obtain ⟨_, step, -⟩ := after.head
    -- the bracket is open where the layout would stand
    have one := (Reads.single bracket).depth
    have open' := inside.depth
    have none := step.depth_of_isLayout layout
    have kept := hopen part (List.prefix_append ..)
    simp only [List.countP_singleton, hleft, closes_of_opens hleft, if_true] at one
    simp only [Bool.false_eq_true, if_false] at one
    omega

end Layout

/-! ### The lexer keeps to the layout -/

namespace Lexer
open Layout
variable {c : Char} {cs rest : List Char}

theorem Leads.isEof {k : TokenKind} (h : Leads c cs k) : k.isEof = false := by
  cases h with
  | word =>
    unfold wordKind
    split <;> rfl
  | _ => rfl

theorem Indentation.blankWidth_read (h : (Indentation.read cs).rest = c :: rest) :
    blankWidth? c = none := by
  fun_induction Indentation.read cs with
  | case1 => cases h
  | case2 d cs w blank i ih => exact ih h
  | case3 d cs blank =>
    cases h
    exact blank

/-- Where a line is, by what the lexer knows and has left to read. -/
inductive Stage : Bool → List Char → Place → Prop where
  | start (cs : List Char) : Stage true cs .fresh
  /-- The indentation is settled, and a token starts. -/
  | settled {c : Char} (hc : startsLine c = true) (rest : List Char) {p : Place}
    (hp : p ≠ .ended) : Stage false (c :: rest) p
  | within (cs : List Char) (depth : Nat) : Stage false cs (.within depth)
  /-- The text ends with a line of blanks. -/
  | done : Stage false [] .fresh

/-- The phase of the tokens that have led to a state. -/
structure Stands (s : State) (cs : List Char) (φ : Phase) : Prop where
  blocks : φ.blocks = s.indents.length
  depth : φ.place.depth = s.depth
  stage : Stage s.lineStart cs φ.place

namespace State
variable {s : State} {φ : Phase} {tokens : List Token}

theorem dedents_kinds {span : Span} {n : Nat} (h : dedents span n = tokens.map .token) :
    tokens.map (·.kind) = List.replicate n .dedent := by
  rw [← tokens_of_map_token tokens, ← h]
  cases n with
  | zero => rfl
  | succ n =>
    rw [dedents, List.replicate_succ]
    refine congrArg (TokenKind.dedent :: ·) ?_
    clear h
    induction n with
    | zero => rfl
    | succ n ih => exact congrArg (TokenKind.dedent :: ·) ih

theorem settle_reads {indents : List Nat} {width : Nat} {span : Span}
    (h : (settle indents width span).1 = tokens.map .token) :
    ∃ p, Reads ⟨indents.length, .fresh⟩ (tokens.map (·.kind))
        ⟨(settle indents width span).2.length, p⟩ ∧ p ≠ .ended ∧ p.depth = 0 := by
  unfold settle at h ⊢
  dsimp only at h ⊢
  split at h
  case isTrue deeper =>
    rw [if_pos deeper]
    obtain ⟨t, rfl, ht⟩ := List.map_eq_singleton_iff.1 h.symm
    cases ht
    exact ⟨.indented, .single (.indent _), nofun, rfl⟩
  case isFalse deeper =>
  rw [if_neg deeper]
  split at h
  case isTrue shallower =>
    rw [if_pos shallower]
    obtain ⟨faults, later, rfl, hf, hl⟩ := List.map_eq_append_iff.1 h.symm
    have sound : faults = [] := by
      split at hf
      · exact List.map_eq_nil_iff.1 hf
      · obtain ⟨t, -, fault⟩ := List.map_eq_singleton_iff.1 hf
        cases fault
    obtain rfl := sound
    have kept := (indents.dropWhile_sublist (width < ·)).length_le
    obtain ⟨q, closed, waiting⟩ := Reads.dedents (indents.dropWhile (width < ·)).length
      (indents.length - (indents.dropWhile (width < ·)).length) .fresh
    rw [Nat.add_sub_cancel' kept, ← dedents_kinds hl.symm] at closed
    cases waiting <;> exact ⟨_, closed, nofun, rfl⟩
  case isFalse shallower =>
    rw [if_neg shallower]
    obtain rfl := List.map_eq_nil_iff.1 h.symm
    exact ⟨.fresh, .nil _, nofun, rfl⟩

theorem startLine_reads (h : Stands s cs φ) (hs : s.lineStart = true)
    (ht : (s.startLine cs).lexemes = tokens.map .token) :
    ∃ ψ, Reads φ (tokens.map (·.kind)) ψ ∧
      Stands (s.startLine cs).next (s.startLine cs).rest ψ := by
  obtain ⟨blocks, depth, stage⟩ := h
  obtain ⟨n, p⟩ := φ
  obtain rfl : p = .fresh := by
    rw [hs] at stage
    cases stage
    rfl
  unfold startLine at ht ⊢
  dsimp only at blocks depth ht ⊢
  split
  case h_1 shape =>
    rw [shape] at ht
    obtain rfl := List.map_eq_nil_iff.1 ht.symm
    exact ⟨_, .nil _, blocks, depth, .done⟩
  case h_2 c more shape =>
  rw [shape] at ht
  dsimp only at ht
  split
  case isTrue newline =>
    rw [if_pos newline] at ht
    obtain rfl := List.map_eq_nil_iff.1 ht.symm
    exact ⟨_, .nil _, blocks, depth, hs ▸ .start more⟩
  case isFalse newline =>
  rw [if_neg newline] at ht
  split
  case isTrue comment =>
    rw [if_pos comment] at ht
    split
    case h_1 last =>
      rw [last] at ht
      obtain rfl := List.map_eq_nil_iff.1 ht.symm
      exact ⟨_, .nil _, blocks, depth, hs ▸ .start []⟩
    case h_2 next last =>
      rw [last] at ht
      obtain rfl := List.map_eq_nil_iff.1 ht.symm
      exact ⟨_, .nil _, blocks, depth, hs ▸ .start next⟩
  case isFalse comment =>
    rw [if_neg comment] at ht
    obtain ⟨p, settled, hp, hd⟩ := settle_reads ht
    have starts : startsLine c = true := by
      simp [startsLine, Indentation.blankWidth_read shape, newline, comment]
    rw [← blocks] at settled
    exact ⟨_, settled, rfl, hd.trans depth, .settled starts more hp⟩

theorem breakLine_reads (h : Stands s ('\n' :: rest) φ) (hs : s.lineStart = false)
    (ht : (s.breakLine rest).lexemes = tokens.map .token) :
    ∃ ψ, Reads φ (tokens.map (·.kind)) ψ ∧
      Stands (s.breakLine rest).next (s.breakLine rest).rest ψ := by
  obtain ⟨blocks, depth, stage⟩ := h
  obtain ⟨n, p⟩ := φ
  obtain ⟨d, rfl⟩ : ∃ d, p = .within d := by
    rw [hs] at stage
    cases stage with
    | settled hc => cases hc
    | within _ d => exact ⟨d, rfl⟩
  unfold breakLine at ht ⊢
  split at ht
  case isTrue closed =>
    rw [if_pos closed]
    obtain ⟨t, rfl, kind⟩ := List.map_eq_singleton_iff.1 ht.symm
    cases kind
    obtain rfl : d = 0 := depth.trans closed
    exact ⟨⟨n, .fresh⟩, .single (.newline n), blocks, closed.symm, .start rest⟩
  case isFalse closed =>
    rw [if_neg closed]
    obtain rfl := List.map_eq_nil_iff.1 ht.symm
    exact ⟨_, .nil _, blocks, depth, hs ▸ .within rest d⟩

/-- Brackets are counted as a bracket without a fault counts them. -/
theorem bracket_balance {depth : Nat} {k : TokenKind} {span : Span}
    (h : (bracket depth k span).2 = []) :
    depth + (if k.opens then 1 else 0) =
      (bracket depth k span).1 + (if k.closes then 1 else 0) := by
  cases k with
  | punctuation p =>
    cases p with
    | rightParen | rightBracket =>
      simp only [bracket, TokenKind.opens, TokenKind.closes, if_true] at h ⊢
      split at h
      · cases h
      · rw [if_neg ‹_›]
        simp only [Bool.false_eq_true, if_false]
        omega
    | _ => rfl
  | _ => rfl

theorem takePiece_reads (h : Stands s (c :: rest) φ) (hs : s.lineStart = false)
    (ht : (s.takePiece (pieceAt c rest)).lexemes = tokens.map .token) :
    ∃ ψ, Reads φ (tokens.map (·.kind)) ψ ∧
      Stands (s.takePiece (pieceAt c rest)).next (s.takePiece (pieceAt c rest)).rest ψ := by
  obtain ⟨blocks, depth, stage⟩ := h
  obtain ⟨n, p⟩ := φ
  rw [hs] at stage
  unfold takePiece at ht ⊢
  dsimp only at blocks depth ht ⊢
  split
  case h_1 nothing =>
    rw [nothing] at ht
    obtain rfl := List.map_eq_nil_iff.1 ht.symm
    cases stage with
    | settled hc => exact absurd nothing (pieceAt_meaning_ne_nothing hc rest)
    | within _ d => exact ⟨_, .nil _, blocks, depth, hs ▸ .within _ d⟩
  case h_2 fault =>
    rw [fault] at ht
    obtain ⟨t, -, kind⟩ := List.map_eq_singleton_iff.1 ht.symm
    cases kind
  case h_3 k token =>
    rw [token] at ht
    obtain ⟨faults, later, rfl, hf, hl⟩ := List.map_eq_append_iff.1 ht.symm
    obtain ⟨t, rfl, kind⟩ := List.map_eq_singleton_iff.1 hl
    cases kind
    have sound : (bracket s.depth k ⟨s.position,
        s.position + Text.byteLength (pieceAt c rest).taken⟩).2 = [] := by
      refine (bracket_faults ..).resolve_right fun unmatched => ?_
      rw [unmatched] at hf
      obtain ⟨t, -, fault⟩ := List.map_eq_singleton_iff.1 hf
      cases fault
    rw [sound] at hf
    obtain rfl := List.map_eq_nil_iff.1 hf
    have leads := leads_of_pieceAt token
    have hp : p ≠ .ended := by
      rintro rfl
      cases stage with
      | settled _ _ hp => exact hp rfl
    refine ⟨⟨n, .within _⟩, .single (.content n hp leads.isLayout leads.isEof ?_), blocks, rfl,
      hs ▸ .within _ _⟩
    rw [depth]
    exact bracket_balance sound

/-- One step leads from the phase before it to the one after it. -/
theorem step_reads (h : Stands s (c :: rest) φ)
    (ht : (s.step c rest).lexemes = tokens.map .token) :
    ∃ ψ, Reads φ (tokens.map (·.kind)) ψ ∧
      Stands (s.step c rest).next (s.step c rest).rest ψ := by
  unfold step at ht ⊢
  split at ht
  case isTrue hs =>
    rw [if_pos hs]
    exact startLine_reads h hs ht
  case isFalse hs =>
  rw [if_neg hs]
  split at ht
  case isTrue newline =>
    rw [if_pos newline]
    rw [newline] at h
    exact breakLine_reads h (by simpa using hs) ht
  case isFalse newline =>
    rw [if_neg newline]
    exact takePiece_reads h (by simpa using hs) ht

/-- So does a whole run. -/
theorem run_reads (h : Stands s cs φ) (ht : (s.run cs).1 = tokens.map .token) :
    ∃ ψ, Reads φ (tokens.map (·.kind)) ψ ∧ Stands (s.run cs).2 [] ψ := by
  fun_induction run s cs generalizing φ tokens with
  | case1 s =>
    obtain rfl := List.map_eq_nil_iff.1 ht.symm
    exact ⟨φ, .nil φ, h⟩
  | case2 s c rest out more last ran =>
    rename_i ih
    obtain ⟨first, later, rfl, hf, hl⟩ := List.map_eq_append_iff.1 ht.symm
    obtain ⟨ψ, before, stands⟩ := step_reads h hf.symm
    rw [ran] at ih
    obtain ⟨χ, after, ends⟩ := ih stands hl.symm
    exact ⟨χ, List.map_append ▸ before.append after, ends⟩

/-- A line break is added exactly if the last line has none. -/
theorem closing_kinds (s : State) (tokens : List Token) :
    (s.closing tokens).map (·.kind) =
      (if (tokens.map (·.kind)).getLast?.all (·.isLayout) then [] else [.newline]) ++
        (List.replicate s.indents.length .dedent ++ [.eof]) := by
  unfold closing
  rw [List.append_assoc, List.map_append, List.map_append, List.map_const', List.map_replicate]
  congr 1
  rw [List.getLast?_map]
  cases tokens.getLast? with
  | none => rfl
  | some t => cases h : t.kind.isLayout <;> simp [h]

/-- What closes the tokens leads to the end mark. -/
theorem closing_reads (h : Stands s [] φ) (hd : s.depth = 0)
    (ht : Reads ⟨0, .fresh⟩ (tokens.map (·.kind)) φ) :
    Reads φ ((s.closing tokens).map (·.kind)) ⟨0, .ended⟩ := by
  obtain ⟨blocks, depth, stage⟩ := h
  obtain ⟨n, p⟩ := φ
  obtain rfl : n = s.indents.length := blocks
  obtain ⟨q, closed, waiting⟩ := Reads.dedents 0 s.indents.length .fresh
  rw [Nat.zero_add] at closed
  have ended := closed.append (.single (.eof waiting))
  rw [closing_kinds]
  generalize tokens.map (·.kind) = ks at ht
  have place : p = .fresh ∨ p = .within 0 := by
    generalize s.lineStart = start at stage
    cases stage with
    | start | done => exact .inl rfl
    | within _ d => exact .inr (congrArg _ (depth.trans hd))
  obtain rfl | rfl := place
  · rw [if_pos (ht.layout_of_fresh rfl)]
    exact ended
  · rw [if_neg (ht.content_of_within rfl nofun)]
    exact .cons (.newline _) ended

end State
end Lexer

open Lexer in
/-- The tokens of every text are well laid out, stand in the text and stand in order. -/
theorem lex_laidOut {source : String} {tokens : List Token} (h : lex source = .ok tokens) :
    LaidOut (tokens.map (·.kind)) ∧ (∀ t ∈ tokens, t.span.Inside source.toList) ∧
      tokens.Pairwise Precedes := by
  refine ⟨?_, lex_placed h⟩
  obtain ⟨lexed, last, run, depth, rfl⟩ := lex_eq_ok.1 h
  have initial : Stands .initial source.toList ⟨0, .fresh⟩ := ⟨rfl, rfl, .start _⟩
  obtain ⟨φ, reads, stands⟩ := State.run_reads initial (congrArg Prod.fst run)
  rw [run] at stands
  rw [List.map_append]
  exact (reads.append (State.closing_reads stands depth reads)).laidOut

/-- A block, a bracket over two lines, a comment and a last line without a line break. -/
def blockText : String := "if a:\n  f(\n b) # é\nc"

def blockTokens : List Token :=
  [⟨.keyword .ifWord, 0, 2⟩, ⟨.ident "a", 3, 4⟩, ⟨.punctuation .colon, 4, 5⟩, ⟨.newline, 5, 6⟩,
    ⟨.indent, 6, 8⟩, ⟨.ident "f", 8, 9⟩, ⟨.punctuation .leftParen, 9, 10⟩, ⟨.ident "b", 12, 13⟩,
    ⟨.punctuation .rightParen, 13, 14⟩, ⟨.newline, 19, 20⟩, ⟨.dedent, 20, 20⟩, ⟨.ident "c", 20, 21⟩,
    ⟨.newline, 21, 21⟩, ⟨.eof, 21, 21⟩]

theorem lex_block : lex blockText = .ok blockTokens := by cbv

theorem block_laidOut : lex blockText = .ok blockTokens ∧ LaidOut (blockTokens.map (·.kind)) ∧
    (∀ t ∈ blockTokens, t.span.Inside blockText.toList) ∧ blockTokens.Pairwise Lexer.Precedes :=
  ⟨lex_block, lex_laidOut lex_block⟩

end StagedMapping
