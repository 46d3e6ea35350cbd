import StagedMapping.Proofs.Scanning

/-! Where tokens stand. The lexer never moves back: what a step yields stands between the
offset it starts from and the one it reaches, both of them between two characters of the
text (`State.step_placed`). So does a whole run (`State.run_placed`), and from it come the
places of the tokens of a text (`lex_placed`) and of what is wrong with it (`lex_faults`). -/
namespace StagedMapping

/-! ### Offsets between characters -/

namespace Text
variable {text taken rest : List Char} {offset : Nat}

/-- What follows an offset that stands between two characters, or at an end. -/
def RestAt (text : List Char) (offset : Nat) (rest : List Char) : Prop :=
  ∃ front : List Char, text = front ++ rest ∧ offset = byteLength front

/-- The offset stands between two characters, or at an end. -/
def IsBoundary (text : List Char) (offset : Nat) : Prop := ∃ rest, RestAt text offset rest

theorem RestAt.start (text : List Char) : RestAt text 0 text := ⟨[], rfl, rfl⟩

theorem RestAt.boundary (h : RestAt text offset rest) : IsBoundary text offset := ⟨rest, h⟩

theorem RestAt.advance (h : RestAt text offset (taken ++ rest)) :
    RestAt text (offset + byteLength taken) rest := by
  obtain ⟨front, rfl, rfl⟩ := h
  exact ⟨front ++ taken, (List.append_assoc ..).symm, (byteLength_append ..).symm⟩

theorem RestAt.advance_newline (h : RestAt text offset ('\n' :: rest)) :
    RestAt text (offset + 1) rest :=
  @RestAt.advance text ['\n'] rest offset h

theorem IsBoundary.le (h : IsBoundary text offset) : offset ≤ byteLength text := by
  obtain ⟨rest, front, rfl, rfl⟩ := h
  rw [byteLength_append]
  omega

end Text

/-- A part of the text, from one character boundary to another. -/
structure Span.Inside (s : Span) (text : List Char) : Prop where
  ordered : s.start ≤ s.stop
  start : Text.IsBoundary text s.start
  stop : Text.IsBoundary text s.stop

namespace Lexer

/-! ### One step -/

def Lexeme.span : Lexeme → Span
  | token t => t.span
  | fault p => p.span

/-- One token stands before the other. -/
def Precedes (t u : Token) : Prop := t.span.stop ≤ u.span.start

/-- The lexemes stand between two offsets of the text, the tokens among them in order. A
fault stands where its token does, so that the order is one of the tokens. -/
structure Placed (text : List Char) (lo : Nat) (lexemes : List Lexeme) (hi : Nat) : Prop where
  le : lo ≤ hi
  inside : ∀ l ∈ lexemes, l.span.Inside text ∧ lo ≤ l.span.start ∧ l.span.stop ≤ hi
  ordered : (lexemes.filterMap Lexeme.token?).Pairwise Precedes

namespace Placed
variable {text : List Char} {lo mid hi : Nat} {lexemes more : List Lexeme}

theorem nil (h : lo ≤ hi) : Placed text lo [] hi := ⟨h, by simp, .nil⟩

theorem append (h : Placed text lo lexemes mid) (h' : Placed text mid more hi) :
    Placed text lo (lexemes ++ more) hi := by
  refine ⟨Nat.le_trans h.le h'.le, List.forall_mem_append.2 ⟨fun l hl => ?_, fun l hl => ?_⟩, ?_⟩
  · obtain ⟨inside, start, stop⟩ := h.inside l hl
    exact ⟨inside, start, Nat.le_trans stop h'.le⟩
  · obtain ⟨inside, start, stop⟩ := h'.inside l hl
    exact ⟨inside, Nat.le_trans h.le start, stop⟩
  · rw [List.filterMap_append, List.pairwise_append]
    refine ⟨h.ordered, h'.ordered, fun t ht u hu => ?_⟩
    obtain ⟨l, hl, hlt⟩ := List.mem_filterMap.1 ht
    obtain ⟨l', hl', hlu⟩ := List.mem_filterMap.1 hu
    cases l <;> cases l' <;> cases hlt <;> cases hlu
    exact Nat.le_trans (h.inside _ hl).2.2 (h'.inside _ hl').2.1

/-- Lexemes with at most one token, all of one span. -/
theorem of_span {span : Span} (hs : span.Inside text)
    (h : ∀ l ∈ lexemes, l.span = span) (one : (lexemes.filterMap Lexeme.token?).length ≤ 1) :
    Placed text span.start lexemes span.stop := by
  refine ⟨hs.ordered, fun l hl => ?_, ?_⟩
  · rw [h l hl]
    exact ⟨hs, Nat.le_refl _, Nat.le_refl _⟩
  · match tokens : lexemes.filterMap Lexeme.token? with
    | [] => exact .nil
    | [t] => exact List.pairwise_singleton ..
    | _ :: _ :: _ => simp [tokens] at one

end Placed

namespace State
variable {text cs rest : List Char} {s : State} {c : Char}

/-- Tokens without extent, all at one offset. -/
theorem replicate_placed {offset : Nat} (h : Text.IsBoundary text offset) (n : Nat)
    (k : TokenKind) :
    Placed text offset (List.replicate n (.token ⟨k, offset, offset⟩)) offset := by
  induction n with
  | zero => exact .nil (Nat.le_refl _)
  | succ n ih =>
    have spot : Span.Inside ⟨offset, offset⟩ text := ⟨Nat.le_refl offset, h, h⟩
    have one : Placed text offset [.token ⟨k, offset, offset⟩] offset :=
      .of_span spot (by simp [Lexeme.span]) (by simp [Lexeme.token?])
    exact one.append ih

theorem dedents_placed {span : Span} (hs : span.Inside text) (n : Nat) :
    Placed text span.start (dedents span n) span.stop := by
  cases n with
  | zero => exact .nil hs.ordered
  | succ n =>
    have one : Placed text span.start [.token ⟨.dedent, span⟩] span.stop :=
      .of_span hs (by simp [Lexeme.span]) (by simp [Lexeme.token?])
    exact one.append (replicate_placed hs.stop n .dedent)

theorem settle_placed {span : Span} (hs : span.Inside text) (indents : List Nat) (width : Nat) :
    Placed text span.start (settle indents width span).1 span.stop := by
  unfold settle
  dsimp only
  split
  · exact .of_span hs (by simp [Lexeme.span]) (by simp [Lexeme.token?])
  split
  · -- the fault covers what the first dedent covers
    have dedented := dedents_placed hs
      (indents.length - (indents.dropWhile (width < ·)).length)
    refine ⟨hs.ordered, List.forall_mem_append.2 ⟨fun l hl => ?_, dedented.inside⟩, ?_⟩
    · split at hl
      · cases hl
      · obtain rfl := List.mem_singleton.1 hl
        exact ⟨hs, Nat.le_refl _, Nat.le_refl _⟩
    · rw [List.filterMap_append]
      split <;> exact dedented.ordered
  · exact .nil hs.ordered

/-- What a step yields stands between the offsets before and after it. -/
structure StepPlaced (text : List Char) (s : State) (out : Step) : Prop where
  lexemes : Placed text s.position out.lexemes out.next.position
  reached : Text.RestAt text out.next.position out.rest

theorem startLine_placed (h : Text.RestAt text s.position cs) :
    StepPlaced text s (s.startLine cs) := by
  rw [← Indentation.read_append cs] at h
  have after := h.advance
  have blanks : s.position ≤ s.position + Text.byteLength (Indentation.read cs).taken :=
    Nat.le_add_right ..
  unfold startLine
  generalize Indentation.read cs = i at h after blanks
  dsimp only
  split
  case h_1 shape =>
    rw [shape] at after
    exact ⟨.nil blanks, after⟩
  case h_2 d more shape =>
  rw [shape] at after h
  split
  case isTrue newline =>
    rw [newline] at after
    exact ⟨.nil (by dsimp only; omega), after.advance_newline⟩
  case isFalse =>
  split
  case isTrue comment =>
    rw [← List.takeWhile_append_dropWhile (p := (· ≠ '\n')) (l := more), ← List.cons_append] at after
    have ended := after.advance
    split
    case h_1 last =>
      rw [last] at ended
      exact ⟨.nil (by dsimp only; omega), ended⟩
    case h_2 e next shape' =>
      have newline : e = '\n' := by
        have := List.head?_dropWhile_not (· ≠ '\n') more
        rw [shape'] at this
        simpa using this
      rw [shape', newline] at ended
      exact ⟨.nil (by dsimp only; omega), ended.advance_newline⟩
  case isFalse =>
    have indentation : Span.Inside ⟨s.position, s.position + Text.byteLength i.taken⟩ text :=
      ⟨blanks, h.boundary, after.boundary⟩
    exact ⟨settle_placed indentation .., after⟩

theorem breakLine_placed (h : Text.RestAt text s.position ('\n' :: rest)) :
    StepPlaced text s (s.breakLine rest) := by
  have after := h.advance_newline
  have le : s.position ≤ s.position + 1 := Nat.le_succ _
  unfold breakLine
  split
  · have newline : Span.Inside ⟨s.position, s.position + 1⟩ text := ⟨le, h.boundary, after.boundary⟩
    exact ⟨.of_span newline (by simp [Lexeme.span]) (by simp [Lexeme.token?]), after⟩
  · exact ⟨.nil le, after⟩

theorem takePiece_placed {p : Piece} (h : Text.RestAt text s.position (p.taken ++ p.rest)) :
    StepPlaced text s (s.takePiece p) := by
  have after := h.advance
  have le : s.position ≤ s.position + Text.byteLength p.taken := Nat.le_add_right ..
  have inside : Span.Inside ⟨s.position, s.position + Text.byteLength p.taken⟩ text :=
    ⟨le, h.boundary, after.boundary⟩
  unfold takePiece
  dsimp only
  split
  · exact ⟨.nil le, after⟩
  · exact ⟨.of_span inside (by simp [Lexeme.span]) (Nat.le_of_lt Nat.one_pos), after⟩
  · rename_i k _
    refine ⟨.of_span inside ?_ ?_, after⟩
    · rcases bracket_faults s.depth k ⟨s.position, s.position + Text.byteLength p.taken⟩ with
        clear | unmatched
      · simp [clear, Lexeme.span]
      · simp [unmatched, Lexeme.span]
    · rcases bracket_faults s.depth k ⟨s.position, s.position + Text.byteLength p.taken⟩ with
        clear | unmatched
      · rw [clear]
        exact Nat.le_refl 1
      · rw [unmatched]
        exact Nat.le_refl 1

theorem step_placed (h : Text.RestAt text s.position (c :: rest)) :
    StepPlaced text s (s.step c rest) := by
  unfold step
  split
  · exact startLine_placed h
  split
  case isTrue newline =>
    rw [newline] at h
    exact breakLine_placed h
  case isFalse =>
    rw [← pieceAt_append c rest] at h
    exact takePiece_placed h

/-! ### Whole runs -/

theorem run_placed (h : Text.RestAt text s.position cs) :
    Placed text s.position (s.run cs).1 (s.run cs).2.position ∧
      Text.RestAt text (s.run cs).2.position [] := by
  fun_induction run s cs with
  | case1 s => exact ⟨.nil (Nat.le_refl _), h⟩
  | case2 s c rest out more last ran ih =>
    have stepped := step_placed h
    obtain ⟨placed, ended⟩ := ih stepped.reached
    rw [ran] at placed ended
    exact ⟨stepped.lexemes.append placed, ended⟩

/-- What closes the tokens stands at the end. -/
theorem closing_placed (h : Text.IsBoundary text s.position) (tokens : List Token) :
    Placed text s.position ((s.closing tokens).map .token) s.position := by
  have flat : ∀ t ∈ s.closing tokens, t.span = ⟨s.position, s.position⟩ := by
    intro t ht
    simp only [closing, List.mem_append, List.mem_map, List.mem_singleton] at ht
    rcases ht with (newline | ⟨-, -, rfl⟩) | rfl
    · split at newline
      · cases newline
      · split at newline
        · cases newline
        · rw [List.mem_singleton.1 newline]
    · rfl
    · rfl
  refine ⟨Nat.le_refl _, fun l hl => ?_, ?_⟩
  · obtain ⟨t, ht, rfl⟩ := List.mem_map.1 hl
    rw [Lexeme.span, flat t ht]
    exact ⟨⟨Nat.le_refl _, h, h⟩, Nat.le_refl _, Nat.le_refl _⟩
  · rw [tokens_of_map_token]
    refine List.pairwise_of_forall_mem_list fun t ht u hu => ?_
    have flush : t.span.stop = u.span.start := by rw [flat t ht, flat u hu]
    exact Nat.le_of_eq flush

end State
end Lexer

/-! ### Tokens and faults of a text -/

open Lexer in
/-- The tokens of a text stand in it, in order. -/
theorem lex_placed {source : String} {tokens : List Token} (h : lex source = .ok tokens) :
    (∀ t ∈ tokens, t.span.Inside source.toList) ∧ tokens.Pairwise Precedes := by
  obtain ⟨lexed, last, run, -, rfl⟩ := lex_eq_ok.1 h
  obtain ⟨placed, ended⟩ := State.run_placed (s := .initial) (.start source.toList)
  rw [run] at placed ended
  have whole := placed.append (State.closing_placed ended.boundary lexed)
  rw [← List.map_append] at whole
  refine ⟨fun t ht => (whole.inside _ (List.mem_map_of_mem ht)).1, ?_⟩
  rw [← tokens_of_map_token (lexed ++ last.closing lexed)]
  exact whole.ordered

open Lexer in
/-- What is wrong with a text stands in it. -/
theorem lex_faults {source : String} {problems : List Problem}
    (h : lex source = .error problems) : ∀ p ∈ problems, p.span.Inside source.toList := by
  obtain ⟨placed, ended⟩ := State.run_placed (s := .initial) (.start source.toList)
  unfold lex at h
  generalize State.initial.run source.toList = out at h placed ended
  dsimp only at h
  generalize unclosed : ite (out.2.depth = 0) ([] : List Problem) _ = bracket at h
  split at h
  · cases h
  cases h
  refine List.forall_mem_append.2 ⟨fun p hp => ?_, fun p hp => ?_⟩
  · obtain ⟨l, hl, hlp⟩ := List.mem_filterMap.1 hp
    cases l <;> cases hlp
    exact (placed.inside _ hl).1
  · rw [← unclosed] at hp
    split at hp
    · cases hp
    · obtain rfl := List.mem_singleton.1 hp
      exact ⟨Nat.le_refl _, ended.boundary, ended.boundary⟩

end StagedMapping
