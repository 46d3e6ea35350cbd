import StagedMapping.Source.Lexer

/-! Scanning within a line. `Scans cs ks rest` says that the lexer takes `cs` piece by piece
down to `rest`, in blanks and tokens of the kinds `ks`, with every bracket closed again.
What is left stands in the judgment, so that a longest match cannot run past the end of a
piece. A scan is a part of the run of the lexer (`Scans.passes`), and a scan of a whole text
gives its tokens (`Scans.lex`). -/
namespace StagedMapping

/-- Neither shapes blocks nor opens or closes a bracket. -/
def TokenKind.isPlain : TokenKind → Bool
  | newline | indent | dedent | eof => false
  | punctuation .leftParen | punctuation .rightParen => false
  | punctuation .leftBracket | punctuation .rightBracket => false
  | _ => true

theorem TokenKind.inline_of_isPlain {k : TokenKind} (h : k.isPlain = true) :
    k.isLayout = false ∧ k.isEof = false := by
  cases k with
  | newline | indent | dedent | eof => cases h
  | _ => exact ⟨rfl, rfl⟩

namespace Lexer

/-- An opening bracket and the one that closes it, as characters and as tokens. -/
inductive Brackets : Char → TokenKind → Char → TokenKind → Prop where
  | round : Brackets '(' (.punctuation .leftParen) ')' (.punctuation .rightParen)
  | square : Brackets '[' (.punctuation .leftBracket) ']' (.punctuation .rightBracket)

/-- The first characters are blanks and tokens of the given kinds; the last ones are left. -/
inductive Scans : List Char → List TokenKind → List Char → Prop where
  | done (rest : List Char) : Scans rest [] rest
  | blank {cs rest : List Char} {ks : List TokenKind} (h : Scans cs ks rest) :
    Scans (' ' :: cs) ks rest
  | piece {c : Char} {cs after rest taken : List Char} {k : TokenKind} {ks : List TokenKind}
    (hc : c ≠ '\n') (hp : pieceAt c cs = ⟨.token k, taken, after⟩) (hk : k.isPlain = true)
    (h : Scans after ks rest) : Scans (c :: cs) (k :: ks) rest
  | enclosed {opening closing : Char} {left right : TokenKind} {cs after rest : List Char}
    {ks ls : List TokenKind} (hb : Brackets opening left closing right)
    (inside : Scans cs ks (closing :: after)) (h : Scans after ls rest) :
    Scans (opening :: cs) (left :: (ks ++ right :: ls)) rest

/-! ### Steps within a line -/

namespace State

theorem bracket_of_isPlain {k : TokenKind} (h : k.isPlain = true) (depth : Nat) (span : Span) :
    bracket depth k span = (depth, []) := by
  unfold bracket
  split
  all_goals first | rfl | cases h

/-- A state within a line goes on with a piece. -/
theorem run_cons {s : State} {c : Char} (hs : s.lineStart = false) (hc : c ≠ '\n')
    (cs : List Char) :
    s.run (c :: cs) =
      ((s.takePiece (pieceAt c cs)).lexemes ++
          ((s.takePiece (pieceAt c cs)).next.run (pieceAt c cs).rest).1,
        ((s.takePiece (pieceAt c cs)).next.run (pieceAt c cs).rest).2) := by
  have rest : (s.takePiece (pieceAt c cs)).rest = (pieceAt c cs).rest := by
    unfold takePiece
    split <;> rfl
  rw [run, step, if_neg (by simp [hs]), if_neg hc, rest]

/-- A state within a line gives tokens of the kinds `ks` and then goes on as another one. -/
structure Passes (s : State) (cs : List Char) (ks : List TokenKind) (after : State)
    (rest : List Char) : Prop where
  inLine : after.lineStart = false
  indents : after.indents = s.indents
  run : ∃ tokens : List Token, tokens.map (·.kind) = ks ∧
    s.run cs = (tokens.map .token ++ (after.run rest).1, (after.run rest).2)

namespace Passes
variable {s t u : State} {cs mid rest : List Char} {ks ls : List TokenKind}

theorem refl (hs : s.lineStart = false) (rest : List Char) : s.Passes rest [] s rest :=
  ⟨hs, rfl, [], rfl, rfl⟩

theorem trans (h : s.Passes cs ks t mid) (h' : t.Passes mid ls u rest) :
    s.Passes cs (ks ++ ls) u rest := by
  obtain ⟨tokens, rfl, run⟩ := h.run
  obtain ⟨more, rfl, run'⟩ := h'.run
  refine ⟨h'.inLine, h'.indents.trans h.indents, tokens ++ more, List.map_append, ?_⟩
  rw [run, run', List.map_append, List.append_assoc]

theorem blank (hs : s.lineStart = false) (cs : List Char) :
    ∃ s', s.Passes (' ' :: cs) [] s' cs ∧ s'.depth = s.depth := by
  refine ⟨(s.takePiece (pieceAt ' ' cs)).next, ⟨?_, ?_, [], rfl, run_cons hs (by decide) cs⟩, ?_⟩
  all_goals simp [takePiece, pieceAt, hs]

/-- One token; the brackets open after it are all that depends on what it is. -/
theorem token {c : Char} {cs taken after : List Char} {k : TokenKind} {depth : Nat}
    (hs : s.lineStart = false) (hc : c ≠ '\n') (hp : pieceAt c cs = ⟨.token k, taken, after⟩)
    (hb : ∀ span, bracket s.depth k span = (depth, [])) :
    ∃ s', s.Passes (c :: cs) [k] s' after ∧ s'.depth = depth := by
  let stop := s.position + Text.byteLength taken
  have step : s.takePiece (pieceAt c cs) =
      ⟨[.token ⟨k, s.position, stop⟩], { s with position := stop, depth := depth }, after⟩ := by
    simp only [takePiece, hp, hb, List.nil_append, stop]
  have run := run_cons hs hc cs
  rw [step, hp] at run
  exact ⟨{ s with position := stop, depth := depth },
    ⟨hs, rfl, [⟨k, s.position, stop⟩], rfl, run⟩, rfl⟩

end Passes
end State

namespace Brackets
variable {opening closing : Char} {left right : TokenKind} {s : State}

theorem pieceAt_opening (h : Brackets opening left closing right) (cs : List Char) :
    pieceAt opening cs = ⟨.token left, [opening], cs⟩ := by
  cases h <;> cases cs <;> rfl

theorem pieceAt_closing (h : Brackets opening left closing right) (cs : List Char) :
    pieceAt closing cs = ⟨.token right, [closing], cs⟩ := by
  cases h <;> cases cs <;> rfl

theorem passes_opening (h : Brackets opening left closing right) (hs : s.lineStart = false)
    (cs : List Char) :
    ∃ s', s.Passes (opening :: cs) [left] s' cs ∧ s'.depth = s.depth + 1 := by
  have piece := h.pieceAt_opening cs
  cases h
  · exact State.Passes.token hs (by decide) piece fun _ => rfl
  · exact State.Passes.token hs (by decide) piece fun _ => rfl

theorem passes_closing (h : Brackets opening left closing right) (hs : s.lineStart = false)
    {depth : Nat} (hd : s.depth = depth + 1) (cs : List Char) :
    ∃ s', s.Passes (closing :: cs) [right] s' cs ∧ s'.depth = depth := by
  have piece := h.pieceAt_closing cs
  cases h
  · exact State.Passes.token hs (by decide) piece fun _ => by rw [hd]; rfl
  · exact State.Passes.token hs (by decide) piece fun _ => by rw [hd]; rfl

end Brackets

/-! ### Scans -/

namespace Scans
variable {cs rest : List Char} {ks : List TokenKind}

/-- A scan is a part of the run from any state within a line. -/
theorem passes (h : Scans cs ks rest) (s : State) (hs : s.lineStart = false) :
    ∃ s', s.Passes cs ks s' rest ∧ s'.depth = s.depth := by
  induction h generalizing s with
  | done => exact ⟨s, .refl hs _, rfl⟩
  | blank _ ih =>
    obtain ⟨t, first, depth⟩ := State.Passes.blank hs _
    obtain ⟨u, more, depth'⟩ := ih t first.inLine
    exact ⟨u, first.trans more, depth'.trans depth⟩
  | piece hc hp hk _ ih =>
    obtain ⟨t, first, depth⟩ :=
      State.Passes.token hs hc hp (State.bracket_of_isPlain hk s.depth)
    obtain ⟨u, more, depth'⟩ := ih t first.inLine
    exact ⟨u, first.trans more, depth'.trans depth⟩
  | enclosed hb _ _ ihin ih =>
    -- what is inside keeps the depth, so the closing bracket finds the opening one
    obtain ⟨t, left, opened⟩ := hb.passes_opening hs _
    obtain ⟨u, inside, kept⟩ := ihin t left.inLine
    obtain ⟨v, right, closed⟩ := hb.passes_closing inside.inLine (kept.trans opened) _
    obtain ⟨w, more, depth⟩ := ih v right.inLine
    exact ⟨w, left.trans (inside.trans (right.trans more)), depth.trans closed⟩

/-- A scan gives no layout and no end mark. -/
theorem inline (h : Scans cs ks rest) : ∀ k ∈ ks, k.isLayout = false ∧ k.isEof = false := by
  induction h with
  | done => exact fun _ hk => by cases hk
  | blank _ ih => exact ih
  | piece _ _ hk _ ih =>
    exact List.forall_mem_cons.2 ⟨TokenKind.inline_of_isPlain hk, ih⟩
  | enclosed hb _ _ ihin ih =>
    cases hb
    all_goals
      refine List.forall_mem_cons.2 ⟨⟨rfl, rfl⟩, List.forall_mem_append.2 ⟨ihin, ?_⟩⟩
      exact List.forall_mem_cons.2 ⟨⟨rfl, rfl⟩, ih⟩

end Scans

/-! ### Whole texts -/

/-- Starts the tokens of a line: no blank, no line break and no comment. -/
def startsLine (c : Char) : Bool := (blankWidth? c).isNone && c ≠ '\n' && c ≠ '#'

theorem State.initial_run {c : Char} (hc : startsLine c = true) (cs : List Char) :
    State.initial.run (c :: cs) =
      State.run { State.initial with lineStart := false } (c :: cs) := by
  simp only [startsLine, Bool.and_eq_true, Option.isNone_iff_eq_none, decide_eq_true_eq] at hc
  obtain ⟨⟨blank, newline⟩, comment⟩ := hc
  have step : State.initial.step c cs =
      ⟨[], { State.initial with lineStart := false }, c :: cs⟩ := by
    simp [State.step, State.startLine, Indentation.read, blank, newline, comment, State.settle,
      State.initial, Text.byteLength]
  rw [State.run, step]
  rfl

/-- Lexemes without faults are tokens. -/
theorem map_token_of_fault_free {lexemes : List Lexeme}
    (h : lexemes.filterMap Lexeme.fault? = []) :
    lexemes = (lexemes.filterMap Lexeme.token?).map .token := by
  induction lexemes with
  | nil => rfl
  | cons l rest ih =>
    cases l with
    | token t => exact congrArg (Lexeme.token t :: ·) (ih h)
    | fault p => cases h

theorem tokens_of_map_token (tokens : List Token) :
    (tokens.map Lexeme.token).filterMap Lexeme.token? = tokens := by
  induction tokens with
  | nil => rfl
  | cons t rest ih => exact congrArg (t :: ·) ih

theorem faults_of_map_token (tokens : List Token) :
    (tokens.map Lexeme.token).filterMap Lexeme.fault? = [] := by
  induction tokens with
  | nil => rfl
  | cons t rest ih => exact ih

/-- After tokens within an unindented line come a line break and the end mark. -/
theorem State.closing_of_inline {s : State} {tokens : List Token} (hs : s.indents = [])
    (hne : tokens ≠ []) (h : ∀ t ∈ tokens, t.kind.isLayout = false) :
    (s.closing tokens).map (·.kind) = [.newline, .eof] := by
  simp [State.closing, hs, List.getLast?_eq_some_getLast hne, h _ (List.getLast_mem hne)]

end Lexer

open Lexer in
/-- The tokens of a text are those of its run, closed, if nothing is wrong. -/
theorem lex_eq_ok {source : String} {tokens : List Token} :
    lex source = .ok tokens ↔ ∃ (lexed : List Token) (last : State),
      State.initial.run source.toList = (lexed.map .token, last) ∧ last.depth = 0 ∧
        tokens = lexed ++ last.closing lexed := by
  unfold lex
  generalize State.initial.run source.toList = out
  obtain ⟨lexemes, last⟩ := out
  constructor
  · intro h
    dsimp only at h
    by_cases depth : last.depth = 0
    · rw [if_pos depth, List.append_nil] at h
      split at h
      case isFalse => cases h
      case isTrue free =>
      refine ⟨_, last, ?_, depth, (Except.ok.inj h).symm⟩
      rw [← map_token_of_fault_free (List.isEmpty_iff.1 free)]
    · rw [if_neg depth, if_neg (by simp)] at h
      cases h
  · rintro ⟨lexed, last', out, depth, rfl⟩
    cases out
    simp only [tokens_of_map_token, faults_of_map_token, depth, if_true, List.append_nil,
      List.isEmpty_nil]

open Lexer in
/-- A scan of a whole line gives its tokens, and the line break and end mark that close it. -/
theorem Lexer.Scans.lex {source : String} {c : Char} {cs : List Char} {ks : List TokenKind}
    (h : Scans (c :: cs) ks []) (hs : source.toList = c :: cs) (hc : startsLine c = true) :
    ∃ tokens, lex source = .ok tokens ∧ tokens.map (·.kind) = ks ++ [.newline, .eof] := by
  obtain ⟨last, pass, depth⟩ := h.passes { State.initial with lineStart := false } rfl
  obtain ⟨tokens, rfl, run⟩ := pass.run
  rw [← State.initial_run hc, State.run, List.append_nil, ← hs] at run
  refine ⟨_, lex_eq_ok.2 ⟨tokens, last, run, depth, rfl⟩, ?_⟩
  rw [List.map_append, State.closing_of_inline pass.indents]
  · rintro rfl
    cases h
    cases hc
  · exact fun t ht => (h.inline _ (List.mem_map_of_mem ht)).1

/-! ### Texts of one token -/

namespace Lexer
variable {c : Char} {cs : List Char}

theorem startsLine_iff :
    startsLine c = true ↔ ¬(c = ' ' ∨ c = '\t' ∨ c = '\r') ∧ c ≠ '\n' ∧ c ≠ '#' := by
  unfold startsLine blankWidth?
  split
  · simp_all
  split
  · simp_all
  split <;> simp_all

/-- Every piece but a blank or a comment is a token or a fault. -/
theorem pieceAt_meaning_ne_nothing (hc : startsLine c = true) (cs : List Char) :
    (pieceAt c cs).meaning ≠ .nothing := by
  obtain ⟨blank, -, comment⟩ := startsLine_iff.1 hc
  rw [pieceAt, if_neg blank, if_neg comment]
  split
  · unfold readString
    split <;> simp
  split
  · simp only [readNumber, integerMeaning, floatMeaning]
    repeat' split
    all_goals simp
  split
  · simp [readWord]
  · unfold readSymbol readSymbol.readOne
    repeat' split
    all_goals simp

/-- The tokens that a text starting with `c` can start with. A number starts with a digit and
so has no sign. -/
inductive Leads (c : Char) (cs : List Char) : TokenKind → Prop where
  | string (text : String) : Leads c cs (.string text)
  | int (hc : c.isDigit = true) {value : Int64} (hvalue : 0 ≤ value.toInt) : Leads c cs (.int value)
  | float (hc : c.isDigit = true) {text : List Char} {value : Float}
    (hvalue : Number.readFloat (c :: text) = some value) : Leads c cs (.float value)
  | word (hc : isIdentStart c = true) :
    Leads c cs (wordKind (String.ofList ((c :: cs).takeWhile isIdentPart)))
  | operator (o : Operator) : Leads c cs (.operator o)
  | mark (p : Punctuation) : Leads c cs (.punctuation p)

theorem leads_of_single? {d : Char} {k : TokenKind} (h : single? d = some k) : Leads c cs k := by
  unfold single? at h
  split at h <;> cases h
  all_goals first | exact .operator _ | exact .mark _

theorem leads_of_double? {d e : Char} {k : TokenKind} (h : double? d e = some k) :
    Leads c cs k := by
  unfold double? at h
  split at h <;> cases h
  all_goals first | exact .operator _ | exact .mark _

/-- The text of a number starts with its first digit. -/
theorem plainNumber_readNumber (hc : c.isDigit = true) :
    ∃ text, plainNumber (readNumber (c :: cs)).taken = c :: text := by
  have part : isDigitPart c = true := by rw [isDigitPart, hc, Bool.true_or]
  have group : c ≠ '_' := by
    rintro rfl
    cases hc
  have power : c ≠ 'E' := by
    rintro rfl
    cases hc
  simp [readNumber, plainNumber, part, group, power]

theorem leads_of_readNumber (hc : c.isDigit = true) {k : TokenKind}
    (h : (readNumber (c :: cs)).meaning = .token k) : Leads c cs k := by
  obtain ⟨text, first⟩ : ∃ text, plainNumber (readNumber (c :: cs)).taken = c :: text :=
    plainNumber_readNumber hc
  have meaning : (readNumber (c :: cs)).meaning = integerMeaning (c :: text) ∨
      (readNumber (c :: cs)).meaning = floatMeaning (c :: text) := by
    rw [← first]
    simp only [readNumber]
    split
    · exact .inl rfl
    · exact .inr rfl
  rcases meaning with meaning | meaning <;> rw [meaning] at h
  · unfold integerMeaning at h
    dsimp only at h
    split at h <;> cases h
    refine .int hc ?_
    rename_i small
    rw [Int64.toInt_ofNat_of_lt small]
    exact Int.natCast_nonneg _
  · unfold floatMeaning at h
    split at h <;> cases h
    exact .float hc ‹_›

theorem leads_of_pieceAt {k : TokenKind} (h : (pieceAt c cs).meaning = .token k) :
    Leads c cs k := by
  unfold pieceAt at h
  split at h
  · cases h
  split at h
  · cases h
  split at h
  · unfold readString at h
    split at h <;> cases h
    exact .string _
  split at h
  case isTrue digit => exact leads_of_readNumber digit h
  case isFalse =>
  split at h
  case isTrue start =>
    cases h
    exact .word start
  case isFalse =>
  unfold readSymbol readSymbol.readOne at h
  repeat' split at h
  all_goals cases h
  all_goals first | exact .mark _ | exact leads_of_double? ‹_› | exact leads_of_single? ‹_›

/-- A piece of a line is no layout. -/
theorem Leads.isLayout {k : TokenKind} (h : Leads c cs k) : k.isLayout = false := by
  cases h with
  | word =>
    unfold wordKind
    split <;> rfl
  | _ => rfl

theorem State.bracket_faults (depth : Nat) (k : TokenKind) (span : Span) :
    (bracket depth k span).2 = [] ∨
      (bracket depth k span).2 = [.fault ⟨.unmatchedBracket, span⟩] := by
  unfold bracket
  split
  · exact .inl rfl
  · exact .inl rfl
  · split
    · exact .inr rfl
    · exact .inl rfl
  · split
    · exact .inr rfl
    · exact .inl rfl
  · exact .inl rfl

/-- The first token of a text without faults. -/
theorem State.run_first {s last : State} {lexed : List Token} (hs : s.lineStart = false)
    (hc : startsLine c = true) (h : s.run (c :: cs) = (lexed.map .token, last)) :
    ∃ (t : Token) (more : List Token) (s' : State), (pieceAt c cs).meaning = .token t.kind ∧
      lexed = t :: more ∧ s'.lineStart = false ∧
      s'.run (pieceAt c cs).rest = (more.map .token, last) := by
  rw [run_cons hs (startsLine_iff.1 hc).2.1 cs] at h
  obtain ⟨lexemes, ends⟩ := Prod.mk.inj h
  cases meaning : (pieceAt c cs).meaning with
  | nothing => exact absurd meaning (pieceAt_meaning_ne_nothing hc cs)
  | fault f =>
    simp only [takePiece, meaning] at lexemes
    cases lexed <;> cases lexemes
  | token k =>
    let span : Span := ⟨s.position, s.position + Text.byteLength (pieceAt c cs).taken⟩
    simp only [takePiece, meaning] at lexemes ends
    rcases bracket_faults s.depth k span with clear | unmatched
    · rw [clear, List.nil_append, List.singleton_append] at lexemes
      obtain ⟨t, more, rfl, ht, hmore⟩ := List.map_eq_cons_iff.1 lexemes.symm
      cases ht
      exact ⟨⟨k, span⟩, more,
        { s with position := span.stop, depth := (bracket s.depth k span).1 }, rfl, rfl, hs,
        Prod.ext hmore.symm ends⟩
    · rw [unmatched] at lexemes
      cases lexed <;> cases lexemes

end Lexer

open Lexer in
/-- If one token is all that a text has, it is the first piece, and no token can start in
what that piece leaves. -/
theorem Lexer.piece_of_lex {source : String} {c : Char} {cs : List Char} {k : TokenKind}
    {tokens : List Token} (hs : source.toList = c :: cs) (hc : startsLine c = true)
    (h : lex source = .ok tokens) (hk : tokens.map (·.kind) = [k, .newline, .eof]) :
    (pieceAt c cs).meaning = .token k ∧ ∀ d ∈ (pieceAt c cs).rest.head?, startsLine d = false := by
  obtain ⟨lexed, last, run, depth, rfl⟩ := lex_eq_ok.1 h
  rw [hs, State.initial_run hc] at run
  obtain ⟨t, more, s, meaning, rfl, inLine, run⟩ := State.run_first rfl hc run
  rw [List.cons_append, List.map_cons, List.cons.injEq] at hk
  obtain ⟨rfl, hk⟩ := hk
  refine ⟨meaning, fun d hd => Bool.eq_false_iff.2 fun starts => ?_⟩
  obtain ⟨rest, hrest⟩ := List.head?_eq_some_iff.1 hd
  rw [hrest] at run
  obtain ⟨t', more', -, meaning', rfl, -, -⟩ :=
    State.run_first inLine starts run
  have layout := (leads_of_pieceAt meaning').isLayout
  rw [List.cons_append, List.map_cons, List.cons.injEq] at hk
  rw [hk.1] at layout
  cases layout

end StagedMapping
