import StagedMapping.Proofs.LineSteps

/-! Blank lines. `State.Reaches` says that steps lead from one state to another, and what they
yield. A run that has come to the start of a line comes to it whatever follows
(`Reaches.resume`), so a line without tokens can be put in there (`Reaches.insert`), and the run
goes on as before, only further back in the text. Nothing but places depends on such a line
(`lex_blank_line`). -/
namespace StagedMapping
namespace Lexer

/-! ### Reached states -/

namespace State
variable {s t : State} {cs : List Char} {lexemes more : List Lexeme}

/-- From a state at the front of one text, steps lead to another at the front of what is left. -/
inductive Reaches : State → List Char → List Lexeme → State → List Char → Prop where
  | refl (s : State) (cs : List Char) : Reaches s cs [] s cs
  | step {s t : State} {cs left : List Char} {out : Step} {lexemes : List Lexeme}
    (first : s.Steps cs out) (more : Reaches out.next out.rest lexemes t left) :
    Reaches s cs (out.lexemes ++ lexemes) t left

namespace Reaches
variable {left : List Char}

theorem trans {u : State} {mid : List Char} (h : s.Reaches cs lexemes t mid)
    (h' : t.Reaches mid more u left) : s.Reaches cs (lexemes ++ more) u left := by
  induction h with
  | refl => exact h'
  | step first _ ih =>
    rw [List.append_assoc]
    exact .step first (ih h')

/-- What is reached is a part of the run. -/
theorem run (h : s.Reaches cs lexemes t left) :
    s.run cs = (lexemes ++ (t.run left).1, (t.run left).2) := by
  induction h with
  | refl => rfl
  | step first _ ih =>
    obtain ⟨c, rest⟩ := first
    rw [State.run, ih, List.append_assoc]

/-- Every step leaves less to do. -/
theorem eq_or_size_lt (h : s.Reaches cs lexemes t left) :
    (s = t ∧ cs = left ∧ lexemes = []) ∨ t.size left < s.size cs := by
  induction h with
  | refl => exact .inl ⟨rfl, rfl, rfl⟩
  | step first _ ih =>
    refine .inr ?_
    rcases ih with ⟨rfl, rfl, -⟩ | less
    · exact first.size_lt
    · exact Nat.lt_trans less first.size_lt

/-- Up to the start of a line, what follows the line feed before it does not matter. -/
theorem resume {line : List Char} (h : s.Reaches (line ++ '\n' :: left) lexemes t left)
    (ht : t.lineStart = true) (rest : List Char) :
    s.Reaches (line ++ '\n' :: rest) lexemes t rest := by
  generalize text : line ++ '\n' :: left = cs at h
  induction h generalizing line with
  | refl =>
    have length := congrArg List.length text
    simp only [List.length_append, List.length_cons] at length
    omega
  | @step s t cs left out lexemes first more ih =>
    subst text
    cases s.endsIn line with
    | before ls next remainder steps =>
      obtain rfl := first.unique (steps left)
      have stepped := Reaches.step (steps rest) (ih ht rfl)
      exact stepped
    | atEnd ls next steps =>
      obtain rfl := first.unique (steps left)
      rcases more.eq_or_size_lt with ⟨rfl, -, rfl⟩ | less
      · have stepped := Reaches.step (steps rest) (.refl _ rest)
        exact stepped
      · -- no state has more to do in front of `left` than one at the start of a line
        simp only [size, ht, if_true] at less
        split at less <;> omega
    | past steps =>
      obtain ⟨out', step, shorter, inLine⟩ := steps left
      obtain rfl := first.unique step
      rcases more.eq_or_size_lt with ⟨rfl, -, -⟩ | less
      · rw [inLine] at ht
        cases ht
      · simp only [size, ht, inLine, if_true, Bool.false_eq_true, if_false] at less
        omega

/-- A run that is at the start of a line came to the front of that line first. What it passed
since then is nothing, or a comment that ends the text. -/
theorem exists_line_front (h : s.Reaches cs lexemes t left) (ht : t.lineStart = true) :
    ∃ tail u, Tokenless tail ∧ u.lineStart = true ∧ t = u.shift (Text.byteLength tail) ∧
      s.Reaches cs lexemes u (tail ++ left) ∧
      ((s = u ∧ cs = tail ++ left ∧ lexemes = []) ∨
        ∃ line, cs = line ++ '\n' :: (tail ++ left)) := by
  induction h with
  | refl s cs =>
    refine ⟨[], s, .nil, ht, ?_, .refl s cs, .inl ⟨rfl, rfl, rfl⟩⟩
    simp only [shift, Text.byteLength, Nat.zero_add]
  | @step s t cs left out lexemes first more ih =>
    obtain ⟨tail, u, tokenless, starts, shifted, reached, front⟩ := ih ht
    rcases front with ⟨rfl, text, rfl⟩ | ⟨line, text⟩
    · rcases first.starts_line starts with ⟨line, rfl⟩ | ⟨rfl, hs, last⟩
      · rw [text]
        rw [text] at first
        exact ⟨tail, _, tokenless, starts, shifted, .step first reached, .inr ⟨line, rfl⟩⟩
      · -- the comment starts further up, at the front of its line
        obtain ⟨rfl, rfl⟩ := List.append_eq_nil_iff.1 text.symm
        refine ⟨cs, s, last, hs, ?_, ?_, .inl ⟨rfl, (List.append_nil cs).symm, rfl⟩⟩
        · simpa only [shift_shift, Text.byteLength, Nat.zero_add] using shifted
        · simpa only [List.append_nil] using .refl s cs
    · obtain ⟨taken, rfl⟩ := first.suffix
      refine ⟨tail, u, tokenless, starts, shifted, .step first reached, .inr ⟨taken ++ line, ?_⟩⟩
      rw [text, List.append_assoc]

/-- At the start of a line, a line without tokens can be put in. -/
theorem insert {front line : List Char} (h : s.Reaches (front ++ left) lexemes t left)
    (ht : t.lineStart = true) (hline : Tokenless line) :
    s.Reaches (front ++ (line ++ '\n' :: left)) lexemes (t.shift (Text.byteLength line + 1))
      left := by
  obtain ⟨tail, u, tokenless, starts, rfl, reached, first⟩ := h.exists_line_front ht
  -- a comment that ended the text takes the new line in, so they are passed as one line
  have passed : u.Reaches (tail ++ line ++ '\n' :: left) []
      ((u.shift (Text.byteLength tail)).shift (Text.byteLength line + 1)) left := by
    have step : u.Steps (tail ++ line ++ '\n' :: left)
        (u.startLine (tail ++ line ++ '\n' :: left)) := .startLine starts (by simp)
    rw [startLine_tokenless u (tokenless.append hline)] at step
    have place : Text.byteLength line + 1 + Text.byteLength tail =
        Text.byteLength (tail ++ line) + 1 := by
      rw [Text.byteLength_append]
      omega
    rw [shift_shift, place]
    exact .step step (.refl _ left)
  rw [← List.append_nil lexemes]
  rcases first with ⟨rfl, text, rfl⟩ | ⟨before, text⟩
  · obtain rfl := List.append_cancel_right text
    rw [← List.append_assoc]
    exact passed
  · rw [text] at reached
    have all := (reached.resume starts (tail ++ line ++ '\n' :: left)).trans passed
    have text : front = before ++ '\n' :: tail :=
      List.append_cancel_right (by rw [text, List.append_assoc, List.cons_append])
    simpa only [text, List.append_assoc, List.cons_append] using all

end Reaches
end State

/-! ### Blank lines -/

/-- After the first text, the lexer is at the start of a logical line and no bracket is open. -/
def AtLineStart (before after : String) : Prop :=
  ∃ lexemes s, State.initial.Reaches (before ++ after).toList lexemes s after.toList ∧
    s.lineStart = true ∧ s.depth = 0

/-- A line of blanks and perhaps a comment, with its line feed. -/
def IsBlankLine (line : String) : Prop := ∃ cs, Tokenless cs ∧ line.toList = cs ++ ['\n']

/-- What the lexer says of a source, without places: the tokens with what they carry, or what is
wrong. -/
def content (source : String) : Except (List Fault) (List TokenKind) :=
  match lex source with
  | .ok tokens => .ok (tokens.map (·.kind))
  | .error problems => .error (problems.map (·.fault))

/-- The kinds of the tokens among the lexemes. -/
def kinds (lexemes : List Lexeme) : List TokenKind :=
  (lexemes.filterMap Lexeme.token?).map (·.kind)

/-- The faults among the lexemes. -/
def faults (lexemes : List Lexeme) : List Fault :=
  (lexemes.filterMap Lexeme.fault?).map (·.fault)

theorem kinds_shift (front back : List Lexeme) (d : Nat) :
    kinds (front ++ back.map (Lexeme.shift d)) = kinds (front ++ back) := by
  have same : (fun l => (Lexeme.token? (Lexeme.shift d l)).map (·.kind)) =
      fun l => (Lexeme.token? l).map (·.kind) := by
    funext l
    cases l <;> rfl
  simp only [kinds, List.filterMap_append, List.map_append, List.filterMap_map,
    List.map_filterMap, Function.comp_def, same]

theorem faults_shift (front back : List Lexeme) (d : Nat) :
    faults (front ++ back.map (Lexeme.shift d)) = faults (front ++ back) := by
  have same : (fun l => (Lexeme.fault? (Lexeme.shift d l)).map (·.fault)) =
      fun l => (Lexeme.fault? l).map (·.fault) := by
    funext l
    cases l <;> rfl
  simp only [faults, List.filterMap_append, List.map_append, List.filterMap_map,
    List.map_filterMap, Function.comp_def, same]

/-- What closes the tokens depends on what they are only. -/
def State.closingKinds (s : State) (ks : List TokenKind) : List TokenKind :=
  let newline :=
    match ks.getLast? with
    | none => []
    | some k => if k.isLayout then [] else [.newline]
  newline ++ s.indents.map (fun _ => .dedent) ++ [.eof]

theorem State.map_kind_closing (s : State) (tokens : List Token) :
    (s.closing tokens).map (·.kind) = s.closingKinds (tokens.map (·.kind)) := by
  rw [State.closing, State.closingKinds, List.getLast?_map]
  cases tokens.getLast? with
  | none => simp
  | some t => cases layout : t.kind.isLayout <;> simp [layout]

theorem content_of_run {source : String} {lexemes : List Lexeme} {s : State}
    (run : State.initial.run source.toList = (lexemes, s)) :
    content source =
      if (faults lexemes).isEmpty ∧ s.depth = 0 then
        .ok (kinds lexemes ++ s.closingKinds (kinds lexemes))
      else .error (faults lexemes ++ if s.depth = 0 then [] else [.unclosedBracket]) := by
  have closing := State.map_kind_closing s (lexemes.filterMap Lexeme.token?)
  simp only [content, lex, run]
  by_cases depth : s.depth = 0
  · cases found : lexemes.filterMap Lexeme.fault? with
    | nil => simp [depth, found, faults, kinds, closing]
    | cons p more => simp [depth, found, faults]
  · simp [depth, faults]

/-- **Blank lines and lines with only a comment never matter**: at the start of any logical line
one can be put in, and only places change. -/
theorem lex_blank_line {before line after : String} (h : AtLineStart before after)
    (hline : IsBlankLine line) : content (before ++ line ++ after) = content (before ++ after) := by
  obtain ⟨lexemes, s, reached, starts, -⟩ := h
  obtain ⟨cs, tokenless, text⟩ := hline
  rw [String.toList_append] at reached
  have run := reached.run
  have run' := (reached.insert starts tokenless).run
  rw [State.run_shift] at run'
  rw [← String.toList_append] at run
  have text' : (before ++ line ++ after).toList =
      before.toList ++ (cs ++ '\n' :: after.toList) := by simp [text]
  rw [← text'] at run'
  rw [content_of_run run, content_of_run run', kinds_shift, faults_shift]
  rfl

/-- Between a line two blocks deep and one that closes both. -/
theorem lex_blank_line_in_blocks :
    AtLineStart "a:\n b:\n  c\n" "d" ∧ IsBlankLine "\t # e\r\n" ∧
      content ("a:\n b:\n  c\n" ++ "\t # e\r\n" ++ "d") = content ("a:\n b:\n  c\n" ++ "d") := by
  have start : AtLineStart "a:\n b:\n  c\n" "d" :=
    ⟨_, _, .step (.next _ _) <| .step (.next _ _) <| .step (.next _ _) <| .step (.next _ _) <|
      .step (.next _ _) <| .step (.next _ _) <| .step (.next _ _) <| .step (.next _ _) <|
      .step (.next _ _) <| .step (.next _ _) <| .step (.next _ _) <| .refl _ _, rfl, rfl⟩
  have blank : IsBlankLine "\t # e\r\n" :=
    ⟨"\t # e\r".toList, .blank (by decide) (.blank (by decide) (.comment (by decide))), rfl⟩
  exact ⟨start, blank, lex_blank_line start blank⟩

end Lexer
end StagedMapping
