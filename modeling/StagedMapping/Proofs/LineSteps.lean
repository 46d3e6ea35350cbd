import Mathlib.Data.List.TakeWhile
import StagedMapping.Proofs.LiteralText

/-! The steps of the lexer, line by line. A step that starts later in a text yields the same
lexemes, moved, and so does a whole run (`State.run_shift`). A step that starts on a line does
not see what follows the line feed, unless a string takes the line feed in (`State.endsIn`). A
line of blanks and a comment is one step, which yields nothing and leaves the open blocks as
they are (`State.startLine_tokenless`). -/
namespace StagedMapping

/-- A piece with more text behind it. -/
def Piece.before (p : Piece) (more : List Char) : Piece := { p with rest := p.rest ++ more }

/-! ### Shifted runs -/

def Span.shift (d : Nat) (s : Span) : Span := ⟨d + s.start, d + s.stop⟩

namespace Lexer

/-- The same lexeme further back in a text. -/
def Lexeme.shift (d : Nat) : Lexeme → Lexeme
  | token t => token { t with span := t.span.shift d }
  | fault p => fault { p with span := p.span.shift d }

/-- The same state further back in a text. -/
def State.shift (d : Nat) (s : State) : State := { s with position := d + s.position }

def Step.shift (d : Nat) (out : Step) : Step :=
  ⟨out.lexemes.map (Lexeme.shift d), out.next.shift d, out.rest⟩

namespace State
variable {s : State} {d : Nat}

theorem shift_shift (a b : Nat) (s : State) : (s.shift a).shift b = s.shift (b + a) := by
  simp only [shift, Nat.add_assoc]

theorem dedents_shift (span : Span) (n : Nat) :
    dedents (span.shift d) n = (dedents span n).map (Lexeme.shift d) := by
  cases n with
  | zero => rfl
  | succ n => simp [dedents, Lexeme.shift, Span.shift]

theorem settle_shift (indents : List Nat) (width : Nat) (span : Span) :
    settle indents width (span.shift d) =
      ((settle indents width span).1.map (Lexeme.shift d), (settle indents width span).2) := by
  unfold settle
  dsimp only
  split
  · rfl
  split
  · rw [List.map_append, dedents_shift]
    split <;> rfl
  · rfl

theorem startLine_shift (cs : List Char) :
    (s.shift d).startLine cs = (s.startLine cs).shift d := by
  unfold startLine
  generalize Indentation.read cs = i
  dsimp only [shift]
  split
  · simp [Step.shift, shift, Nat.add_assoc]
  split
  · simp [Step.shift, shift, Nat.add_assoc]
  split
  · split <;> simp [Step.shift, shift, Nat.add_assoc]
  · have settled := settle_shift (d := d) s.indents i.width
      ⟨s.position, s.position + Text.byteLength i.taken⟩
    simp only [Span.shift] at settled
    simp only [Nat.add_assoc, settled, Step.shift, shift]

theorem breakLine_shift (rest : List Char) :
    (s.shift d).breakLine rest = (s.breakLine rest).shift d := by
  unfold breakLine
  rw [show (s.shift d).depth = s.depth from rfl]
  split <;> simp [Step.shift, shift, Lexeme.shift, Span.shift, Nat.add_assoc]

theorem bracket_shift (depth : Nat) (kind : TokenKind) (span : Span) :
    bracket depth kind (span.shift d) =
      ((bracket depth kind span).1, (bracket depth kind span).2.map (Lexeme.shift d)) := by
  unfold bracket
  split
  · rfl
  · rfl
  · split <;> rfl
  · split <;> rfl
  · rfl

theorem takePiece_shift (p : Piece) : (s.shift d).takePiece p = (s.takePiece p).shift d := by
  unfold takePiece
  dsimp only [shift]
  split
  · simp [Step.shift, shift, Nat.add_assoc]
  · simp [Step.shift, shift, Nat.add_assoc, Lexeme.shift, Span.shift]
  · rename_i kind _
    have bracketed := bracket_shift (d := d) s.depth kind
      ⟨s.position, s.position + Text.byteLength p.taken⟩
    simp only [Span.shift] at bracketed
    simp [Step.shift, shift, Nat.add_assoc, bracketed, Lexeme.shift, Span.shift]

theorem step_shift (c : Char) (rest : List Char) :
    (s.shift d).step c rest = (s.step c rest).shift d := by
  unfold step
  rw [show (s.shift d).lineStart = s.lineStart from rfl]
  split
  · exact startLine_shift _
  split
  · exact breakLine_shift _
  · exact takePiece_shift _

/-- A run does not depend on where it starts. -/
theorem run_shift (s : State) (d : Nat) (cs : List Char) :
    (s.shift d).run cs = ((s.run cs).1.map (Lexeme.shift d), (s.run cs).2.shift d) := by
  fun_induction run s cs with
  | case1 s => simp [run]
  | case2 s c rest out more last ran ih =>
    rw [ran] at ih
    rw [run, step_shift, Step.shift]
    dsimp only
    rw [ih, List.map_append]

end State

/-! ### Reading within a line -/

theorem stops_newline (rest : List Char) : Stops ('\n' :: rest) :=
  ⟨by decide, by decide, by decide, fun h => by cases h⟩

theorem Indentation.read_line (u rest : List Char) :
    Indentation.read (u ++ '\n' :: rest) =
      { Indentation.read u with rest := (Indentation.read u).rest ++ '\n' :: rest } := by
  induction u with
  | nil => rfl
  | cons c u ih =>
    simp only [List.cons_append, Indentation.read, ih]
    split <;> rfl

theorem double?_newline (c : Char) : double? c '\n' = none := by
  unfold double?
  split <;> simp_all

theorem readOne_line (c : Char) (u rest : List Char) :
    readSymbol.readOne c (u ++ '\n' :: rest) = (readSymbol.readOne c u).before ('\n' :: rest) := by
  unfold readSymbol.readOne
  split <;> rfl

theorem readSymbol_line (c : Char) (u rest : List Char) :
    readSymbol c (u ++ '\n' :: rest) = (readSymbol c u).before ('\n' :: rest) := by
  -- three points in a row have to be three points on the line
  have apart {d : Char} {more : List Char}
      (h : ∀ tail, c = '.' → d = '.' → more = '.' :: tail → False) (tail : List Char) :
      c = '.' → d = '.' → more ++ '\n' :: rest = '.' :: tail → False := by
    rintro hc hd points
    cases more with
    | nil => cases points
    | cons e more =>
      rw [List.cons_append, List.cons.injEq] at points
      exact h more hc hd (by rw [points.1])
  fun_cases readSymbol c u with
  | case1 more => rfl
  | case2 c d more short kind double =>
    rw [List.cons_append, readSymbol, double]
    · rfl
    · exact apart short
  | case3 c d more short double =>
    rw [List.cons_append, readSymbol, double]
    · exact readOne_line c (d :: more) rest
    · exact apart short
  | case4 c =>
    rw [List.nil_append, readSymbol, double?_newline]
    · exact readOne_line c [] rest
    · simp

theorem readQuoted_left_le (quote : Char) (cs : List Char) :
    (readQuoted quote cs).2.2.length ≤ cs.length := by
  have whole := congrArg List.length (readQuoted_append quote cs)
  rw [List.length_append] at whole
  omega

theorem readString_rest (quote : Char) (cs : List Char) :
    (readString quote cs).rest = (readQuoted quote cs).2.2 := by
  unfold readString
  split <;> simp_all

/-- A quoted text ends on its line, unless a backslash at the end of the line takes in the line
feed. -/
theorem readQuoted_line {quote : Char} (hq : quote ≠ '\\') (u : List Char) :
    (∀ rest, readQuoted quote (u ++ '\n' :: rest) =
      ((readQuoted quote u).1, (readQuoted quote u).2.1,
        (readQuoted quote u).2.2 ++ '\n' :: rest)) ∨
      ∀ rest, (readQuoted quote (u ++ '\n' :: rest)).2.2.length ≤ rest.length := by
  fun_induction readQuoted quote u with
  | case1 =>
    refine .inl fun rest => ?_
    cases rest <;> simp [readQuoted]
  | case2 =>
    refine .inr fun rest => ?_
    have left := readQuoted_left_le quote rest
    simpa [readQuoted, hq.symm] using left
  | case3 d rest => exact .inl fun _ => by simp [readQuoted]
  | case4 d rest newline => exact .inl fun _ => by simp [readQuoted, newline]
  | case5 d rest text taken left read newline closing ih =>
    simp only [read] at ih
    refine ih.imp (fun ih rest => ?_) (fun ih rest => ?_)
    · simp [readQuoted, closing, ih]
    · simpa [readQuoted, closing] using ih rest
  | case6 c d rest newline closing escape text taken left read ih =>
    simp only [read, List.cons_append] at ih
    refine ih.imp (fun ih rest => ?_) (fun ih rest => ?_)
    · simp [readQuoted, newline, closing, escape, ih]
    · simpa [readQuoted, newline, closing, escape] using ih rest
  | case7 => exact .inl fun _ => by simp [readQuoted]
  | case8 escape newline => exact .inl fun _ => by simp [readQuoted, newline]
  | case9 c escape newline closing =>
    replace escape : ¬c = '\\' := escape
    exact .inl fun rest => by cases rest <;> simp [readQuoted, newline, closing, escape]

/-- So does a piece. -/
theorem pieceAt_line (c : Char) (u : List Char) :
    (∀ rest, pieceAt c (u ++ '\n' :: rest) = (pieceAt c u).before ('\n' :: rest)) ∨
      ∀ rest, (pieceAt c (u ++ '\n' :: rest)).rest.length ≤ rest.length := by
  unfold pieceAt
  split
  · exact .inl fun _ => rfl
  split
  · refine .inl fun rest => ?_
    have stop : ∀ d ∈ ('\n' :: rest).head?, decide (d ≠ '\n') = false := by simp
    rw [takeWhile_append_of_stop stop, dropWhile_append_of_stop stop]
    rfl
  split
  · rename_i quote
    have escape : c ≠ '\\' := by
      rintro rfl
      simp at quote
    refine (readQuoted_line escape u).imp (fun ends rest => ?_) (fun past rest => ?_)
    · rw [readString, readString, ends rest]
      obtain ⟨_ | text, taken, left⟩ := readQuoted c u <;> rfl
    · rw [readString_rest]
      exact past rest
  split
  · refine .inl fun rest => ?_
    rw [← List.cons_append]
    exact readNumber_before (stops_newline rest) (c :: u)
  split
  · refine .inl fun rest => ?_
    have stop := (stops_newline rest).identPart
    rw [← List.cons_append, readWord, takeWhile_append_of_stop stop, dropWhile_append_of_stop stop]
    rfl
  · exact .inl fun rest => readSymbol_line c u rest

/-! ### Lines without tokens -/

/-- Blanks, and then perhaps a comment that goes on to the end. -/
inductive Tokenless : List Char → Prop where
  | nil : Tokenless []
  | blank {c : Char} {cs : List Char} (hc : c = ' ' ∨ c = '\t' ∨ c = '\r') (h : Tokenless cs) :
    Tokenless (c :: cs)
  | comment {text : List Char} (h : '\n' ∉ text) : Tokenless ('#' :: text)

theorem exists_blankWidth {c : Char} (hc : c = ' ' ∨ c = '\t' ∨ c = '\r') :
    ∃ w, blankWidth? c = some w := by
  rcases hc with rfl | rfl | rfl <;> exact ⟨_, rfl⟩

namespace Tokenless
variable {cs ds : List Char}

theorem newline_notMem (h : Tokenless cs) : '\n' ∉ cs := by
  induction h with
  | nil => simp
  | blank hc _ ih =>
    rw [List.mem_cons, not_or]
    exact ⟨by rcases hc with rfl | rfl | rfl <;> decide, ih⟩
  | comment h => simp [h]

theorem append (h : Tokenless cs) (h' : Tokenless ds) : Tokenless (cs ++ ds) := by
  induction h with
  | nil => exact h'
  | blank hc _ ih => exact .blank hc ih
  | comment h =>
    refine .comment fun newline => ?_
    exact (List.mem_append.1 newline).elim h h'.newline_notMem

/-- Such a line is all indentation, or a comment follows its indentation. -/
theorem read (h : Tokenless cs) : (Indentation.read cs).rest = [] ∨
    ∃ text, '\n' ∉ text ∧ (Indentation.read cs).rest = '#' :: text := by
  induction h with
  | nil => exact .inl rfl
  | blank hc _ ih =>
    obtain ⟨w, width⟩ := exists_blankWidth hc
    rwa [Indentation.read, width]
  | comment h => exact .inr ⟨_, h, rfl⟩

end Tokenless

/-- A text starts with a line without tokens or is one, or a token follows its indentation. -/
theorem line_cases (cs : List Char) :
    (∃ line rest, Tokenless line ∧ cs = line ++ '\n' :: rest) ∨ Tokenless cs ∨
      ∃ c rest, startsLine c = true ∧ (Indentation.read cs).rest = c :: rest := by
  induction cs with
  | nil => exact .inr (.inl .nil)
  | cons c cs ih =>
    by_cases hc : c = ' ' ∨ c = '\t' ∨ c = '\r'
    · obtain ⟨w, width⟩ := exists_blankWidth hc
      rw [Indentation.read, width]
      rcases ih with ⟨line, rest, tokenless, rfl⟩ | tokenless | token
      · exact .inl ⟨c :: line, rest, .blank hc tokenless, rfl⟩
      · exact .inr (.inl (.blank hc tokenless))
      · exact .inr (.inr token)
    by_cases newline : c = '\n'
    · exact .inl ⟨[], cs, .nil, by rw [newline]; rfl⟩
    by_cases comment : c = '#'
    · subst comment
      by_cases last : '\n' ∈ cs
      · obtain ⟨text, rest, rfl, line⟩ := List.eq_append_cons_of_mem last
        exact .inl ⟨'#' :: text, rest, .comment line, rfl⟩
      · exact .inr (.inl (.comment last))
    · have starts : startsLine c = true := startsLine_iff.2 ⟨hc, newline, comment⟩
      refine .inr (.inr ⟨c, cs, starts, ?_⟩)
      simp only [startsLine, Bool.and_eq_true, Option.isNone_iff_eq_none] at starts
      rw [Indentation.read, starts.1.1]

namespace State
variable {s t : State} {cs rest : List Char} {out : Step} {lexemes more : List Lexeme}

/-- The places after the parts of a line, against the place after all of it. -/
theorem place_after_read (s : State) (cs : List Char) :
    s.position + Text.byteLength (Indentation.read cs).taken +
      Text.byteLength (Indentation.read cs).rest = Text.byteLength cs + s.position := by
  have whole := congrArg Text.byteLength (Indentation.read_append cs)
  rw [Text.byteLength_append] at whole
  omega

theorem all_ne_newline {text : List Char} (h : '\n' ∉ text) :
    ∀ d ∈ text, decide (d ≠ '\n') = true :=
  fun _ hd => decide_eq_true fun newline => h (newline ▸ hd)

/-- A line without tokens is passed over, whatever its indentation. -/
theorem startLine_tokenless (s : State) (h : Tokenless cs) (rest : List Char) :
    s.startLine (cs ++ '\n' :: rest) = ⟨[], s.shift (Text.byteLength cs + 1), rest⟩ := by
  have place := place_after_read s cs
  rw [startLine, Indentation.read_line]
  rcases h.read with blank | ⟨text, line, comment⟩
  · rw [blank, Text.byteLength, Nat.add_zero] at place
    simp only [blank, List.nil_append, if_true, shift, place, Nat.add_right_comm]
  · have all := all_ne_newline line
    have hash : ('#' : Char) ≠ '\n' := by decide
    rw [comment] at place
    simp only [comment, List.cons_append, hash, if_true, if_false,
      List.takeWhile_append_of_pos all, List.dropWhile_append_of_pos all, ne_eq, not_true,
      decide_false, List.takeWhile_cons, List.dropWhile_cons, List.append_nil, Bool.false_eq_true,
      shift, place, Nat.add_right_comm]

/-- At the end of the text a line without tokens is passed over too. Only behind a comment does
the line count as just started. -/
theorem startLine_last (s : State) (h : Tokenless cs) : ∃ starts : Bool,
    s.startLine cs = ⟨[], { s.shift (Text.byteLength cs) with lineStart := starts }, []⟩ := by
  have place := place_after_read s cs
  rw [startLine]
  rcases h.read with blank | ⟨text, line, comment⟩
  · rw [blank, Text.byteLength, Nat.add_zero] at place
    exact ⟨false, by simp only [blank, shift, place]⟩
  · have all := all_ne_newline line
    have hash : ('#' : Char) ≠ '\n' := by decide
    rw [comment] at place
    refine ⟨s.lineStart, ?_⟩
    simp only [comment, hash, if_true, if_false, List.takeWhile_eq_self_iff.2 all,
      List.dropWhile_eq_nil_iff.2 all, shift, place]

/-- In front of a token only the blanks are taken, and they are its indentation. -/
theorem startLine_token {c : Char} (s : State) (hc : startsLine c = true)
    (h : (Indentation.read cs).rest = c :: rest) :
    let i := Indentation.read cs
    let here := s.position + Text.byteLength i.taken
    let layout := settle s.indents i.width ⟨s.position, here⟩
    let next : State := { s with position := here, indents := layout.2, lineStart := false }
    s.startLine cs = ⟨layout.1, next, c :: rest⟩ := by
  obtain ⟨-, newline, comment⟩ := startsLine_iff.1 hc
  simp only [startLine, h, if_neg newline, if_neg comment]

/-! ### Steps -/

/-- One step through a text. -/
inductive Steps (s : State) : List Char → Step → Prop where
  | next (c : Char) (rest : List Char) : Steps s (c :: rest) (s.step c rest)

namespace Steps

theorem startLine (hs : s.lineStart = true) (hne : cs ≠ []) : s.Steps cs (s.startLine cs) := by
  obtain ⟨c, rest, rfl⟩ := List.exists_cons_of_ne_nil hne
  have step : s.step c rest = s.startLine (c :: rest) := if_pos hs
  exact step ▸ .next c rest

theorem breakLine (hs : s.lineStart = false) (rest : List Char) :
    s.Steps ('\n' :: rest) (s.breakLine rest) := by
  have step : s.step '\n' rest = s.breakLine rest := by
    rw [State.step, if_neg (by simp [hs]), if_pos rfl]
  exact step ▸ .next '\n' rest

theorem takePiece {c : Char} (hs : s.lineStart = false) (hc : c ≠ '\n') (rest : List Char) :
    s.Steps (c :: rest) (s.takePiece (pieceAt c rest)) := by
  have step : s.step c rest = s.takePiece (pieceAt c rest) := by
    rw [State.step, if_neg (by simp [hs]), if_neg hc]
  exact step ▸ .next c rest

theorem cases (h : s.Steps cs out) :
    (s.lineStart = true ∧ out = s.startLine cs) ∨
    (s.lineStart = false ∧ ∃ rest, cs = '\n' :: rest ∧ out = s.breakLine rest) ∨
    (s.lineStart = false ∧ ∃ c rest, c ≠ '\n' ∧ cs = c :: rest ∧
      out = s.takePiece (pieceAt c rest)) := by
  obtain ⟨c, rest⟩ := h
  unfold State.step
  split
  · exact .inl ⟨‹_›, rfl⟩
  rename_i inLine
  rw [Bool.not_eq_true] at inLine
  split
  · subst c
    exact .inr (.inl ⟨inLine, rest, rfl, rfl⟩)
  · exact .inr (.inr ⟨inLine, c, rest, ‹_›, rfl, rfl⟩)

theorem unique {out' : Step} (h : s.Steps cs out) (h' : s.Steps cs out') : out = out' := by
  cases h
  cases h'
  rfl

theorem size_lt (h : s.Steps cs out) : out.next.size out.rest < s.size cs := by
  obtain ⟨c, rest⟩ := h
  exact step_size_lt s c rest

end Steps

theorem takePiece_rest (s : State) (p : Piece) : (s.takePiece p).rest = p.rest := by
  unfold takePiece
  split <;> rfl

theorem takePiece_lineStart (s : State) (p : Piece) :
    (s.takePiece p).next.lineStart = s.lineStart := by
  unfold takePiece
  split <;> rfl

theorem takePiece_before (s : State) (p : Piece) (more : List Char) :
    s.takePiece (p.before more) = { s.takePiece p with rest := p.rest ++ more } := by
  unfold takePiece Piece.before
  cases p.meaning <;> rfl

/-- A line break does not look at what follows it. -/
theorem exists_breakLine_eq (s : State) :
    ∃ lexemes next, ∀ rest, s.breakLine rest = ⟨lexemes, next, rest⟩ := by
  unfold breakLine
  split <;> exact ⟨_, _, fun _ => rfl⟩

/-- Where a step ends that starts on a line: before the line feed, with it, or further down in
the middle of a line. Only in the last case does it see what follows the line feed. -/
inductive EndsIn (s : State) (line : List Char) : Prop where
  | before (lexemes : List Lexeme) (next : State) (left : List Char)
    (h : ∀ rest, s.Steps (line ++ '\n' :: rest) ⟨lexemes, next, left ++ '\n' :: rest⟩)
  | atEnd (lexemes : List Lexeme) (next : State)
    (h : ∀ rest, s.Steps (line ++ '\n' :: rest) ⟨lexemes, next, rest⟩)
  | past (h : ∀ rest, ∃ out, s.Steps (line ++ '\n' :: rest) out ∧
      out.rest.length ≤ rest.length ∧ out.next.lineStart = false)

theorem startLine_endsIn (hs : s.lineStart = true) (line : List Char) : s.EndsIn line := by
  have step (rest : List Char) : s.Steps (line ++ '\n' :: rest)
      (s.startLine (line ++ '\n' :: rest)) := .startLine hs (by simp)
  rcases line_cases line with ⟨first, left, tokenless, rfl⟩ | tokenless | ⟨c, left, hc, read⟩
  · simp only [List.append_assoc, List.cons_append, startLine_tokenless s tokenless] at step
    exact .before _ _ left (by simpa only [List.append_assoc, List.cons_append] using step)
  · simp only [startLine_tokenless s tokenless] at step
    exact .atEnd _ _ step
  · have here (rest : List Char) : (Indentation.read (line ++ '\n' :: rest)).rest =
        c :: (left ++ '\n' :: rest) := by rw [Indentation.read_line, read]; rfl
    simp only [startLine_token s hc (here _), Indentation.read_line] at step
    exact .before _ _ (c :: left) step

theorem endsIn (s : State) (line : List Char) : s.EndsIn line := by
  cases hs : s.lineStart
  case true => exact startLine_endsIn hs line
  case false =>
  obtain ⟨lexemes, next, broken⟩ := exists_breakLine_eq s
  have ended (rest : List Char) : s.Steps ('\n' :: rest) ⟨lexemes, next, rest⟩ :=
    broken rest ▸ Steps.breakLine hs rest
  match line with
  | [] => exact .atEnd lexemes next ended
  | c :: line =>
    by_cases newline : c = '\n'
    · subst newline
      exact .before lexemes next line fun rest => ended (line ++ '\n' :: rest)
    have step (rest : List Char) := Steps.takePiece hs newline (line ++ '\n' :: rest)
    rcases pieceAt_line c line with ends | past
    · simp only [ends, takePiece_before] at step
      exact .before _ _ (pieceAt c line).rest step
    · refine .past fun rest => ⟨_, step rest, ?_, ?_⟩
      · rw [takePiece_rest]
        exact past rest
      · rw [takePiece_lineStart]
        exact hs

/-- A line starts behind a line feed, or counts as just started where a comment ends the text. -/
theorem Steps.starts_line (h : s.Steps cs out) (starts : out.next.lineStart = true) :
    (∃ u, cs = u ++ '\n' :: out.rest) ∨
      (out = ⟨[], s.shift (Text.byteLength cs), []⟩ ∧ s.lineStart = true ∧ Tokenless cs) := by
  obtain ⟨hs, rfl⟩ | ⟨hs, rest, rfl, rfl⟩ | ⟨hs, c, rest, -, rfl, rfl⟩ := h.cases
  · rcases line_cases cs with ⟨line, rest, tokenless, rfl⟩ | tokenless | ⟨c, rest, hc, read⟩
    · rw [startLine_tokenless s tokenless]
      exact .inl ⟨line, rfl⟩
    · obtain ⟨lineStart, last⟩ := startLine_last s tokenless
      rw [last] at starts ⊢
      replace starts : lineStart = true := starts
      refine .inr ⟨?_, hs, tokenless⟩
      rw [starts, ← hs]
      rfl
    · rw [startLine_token s hc read] at starts
      cases starts
  · obtain ⟨lexemes, next, broken⟩ := exists_breakLine_eq s
    exact .inl ⟨[], by rw [broken]; rfl⟩
  · rw [takePiece_lineStart, hs] at starts
    cases starts

theorem Steps.suffix (h : s.Steps cs out) : out.rest <:+ cs := by
  obtain ⟨hs, rfl⟩ | ⟨hs, rest, rfl, rfl⟩ | ⟨hs, c, rest, -, rfl, rfl⟩ := h.cases
  · rcases line_cases cs with ⟨line, rest, tokenless, rfl⟩ | tokenless | ⟨c, rest, hc, read⟩
    · rw [startLine_tokenless s tokenless]
      exact ⟨line ++ ['\n'], by simp⟩
    · obtain ⟨lineStart, last⟩ := startLine_last s tokenless
      rw [last]
      exact List.nil_suffix
    · rw [startLine_token s hc read, ← read]
      exact ⟨_, Indentation.read_append cs⟩
  · obtain ⟨lexemes, next, broken⟩ := exists_breakLine_eq s
    rw [broken]
    exact List.suffix_cons ..
  · rw [takePiece_rest]
    exact ⟨_, pieceAt_append c rest⟩

end State
end Lexer
end StagedMapping
