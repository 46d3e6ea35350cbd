import StagedMapping.Source.Lexer.Piece

/-! From characters to tokens. A `Lexer.State` is what has to be known about the text so
far; `State.step` takes one piece, a line break or the indentation of a line, and
`State.run` repeats it to the end. `lex` gives the tokens of a source, or all that is
wrong with it.

Inside brackets line breaks do not count and indentation is not looked at; blank lines
and lines with only a comment never count. -/
namespace StagedMapping
namespace Lexer

/-! ### Indentation -/

/-- The blanks at the front of a line: how far they indent it, what they are and what
follows them. -/
structure Indentation where
  width : Nat
  taken : List Char
  rest : List Char

/-- How far a tab indents. -/
def tabWidth : Nat := 4

/-- How far one character indents, `none` if it is no blank. -/
def blankWidth? (c : Char) : Option Nat :=
  if c = ' ' then some 1 else if c = '\t' then some tabWidth else if c = '\r' then some 0 else none

def Indentation.read : List Char → Indentation
  | [] => ⟨0, [], []⟩
  | c :: rest =>
    match blankWidth? c with
    | some w =>
      let i := Indentation.read rest
      ⟨w + i.width, c :: i.taken, i.rest⟩
    | none => ⟨0, [], c :: rest⟩

theorem Indentation.read_append (cs : List Char) :
    (Indentation.read cs).taken ++ (Indentation.read cs).rest = cs := by
  induction cs with
  | nil => rfl
  | cons c rest ih =>
    unfold Indentation.read
    split <;> simp [ih]

theorem Indentation.read_rest_le (cs : List Char) :
    (Indentation.read cs).rest.length ≤ cs.length := by
  have whole := congrArg List.length (Indentation.read_append cs)
  simp only [List.length_append] at whole
  omega

/-! ### States -/

/-- A token, or something wrong. -/
inductive Lexeme where
  | token (t : Token)
  | fault (p : Problem)
  deriving Repr

def Lexeme.token? : Lexeme → Option Token
  | token t => some t
  | fault _ => none

def Lexeme.fault? : Lexeme → Option Problem
  | token _ => none
  | fault p => some p

/-- What has to be known about the text so far. -/
structure State where
  /-- The offset reached. -/
  position : Nat
  /-- Indentations of the open blocks, innermost first; the outermost, zero, is left out. -/
  indents : List Nat
  /-- Number of open brackets. -/
  depth : Nat
  /-- A logical line starts here. -/
  lineStart : Bool
  deriving DecidableEq, Repr

def State.initial : State := ⟨0, [], 0, true⟩

/-- What a step yields. -/
structure Step where
  lexemes : List Lexeme
  next : State
  rest : List Char

namespace State

/-- `n` dedents; only the first covers the indentation. -/
def dedents (span : Span) : Nat → List Lexeme
  | 0 => []
  | n + 1 =>
    .token ⟨.dedent, span⟩ :: List.replicate n (.token ⟨.dedent, ⟨span.stop, span.stop⟩⟩)

/-- Compares the indentation of a line with the open blocks: what it opens or closes, and
the blocks open afterwards. -/
def settle (indents : List Nat) (width : Nat) (span : Span) : List Lexeme × List Nat :=
  let top := indents.headD 0
  if top < width then ([.token ⟨.indent, span⟩], width :: indents)
  else if width < top then
    let kept := indents.dropWhile (width < ·)
    let landed := kept.headD 0
    let faults := if width = landed then []
      else [Lexeme.fault ⟨.inconsistentIndentation landed width, span⟩]
    (faults ++ dedents span (indents.length - kept.length), kept)
  else ([], indents)

/-- The start of a logical line. A line without tokens is passed over. -/
def startLine (s : State) (cs : List Char) : Step :=
  let i := Indentation.read cs
  let here := s.position + Text.byteLength i.taken
  match i.rest with
  | [] => ⟨[], { s with position := here, lineStart := false }, []⟩
  | c :: rest =>
    if c = '\n' then ⟨[], { s with position := here + 1 }, rest⟩
    else if c = '#' then
      let comment := c :: rest.takeWhile (· ≠ '\n')
      let after := here + Text.byteLength comment
      match rest.dropWhile (· ≠ '\n') with
      | [] => ⟨[], { s with position := after }, []⟩
      | _ :: next => ⟨[], { s with position := after + 1 }, next⟩
    else
      let (layout, indents) := settle s.indents i.width ⟨s.position, here⟩
      ⟨layout, { s with position := here, indents := indents, lineStart := false }, c :: rest⟩

/-- The brackets open after a token, and the fault of closing one that is not open. -/
def bracket (depth : Nat) (kind : TokenKind) (span : Span) : Nat × List Lexeme :=
  match kind with
  | .punctuation .leftParen | .punctuation .leftBracket => (depth + 1, [])
  | .punctuation .rightParen | .punctuation .rightBracket =>
    if depth = 0 then (0, [.fault ⟨.unmatchedBracket, span⟩]) else (depth - 1, [])
  | _ => (depth, [])

/-- A line break; it counts only outside brackets. -/
def breakLine (s : State) (rest : List Char) : Step :=
  let after := s.position + 1
  if s.depth = 0 then
    ⟨[.token ⟨.newline, ⟨s.position, after⟩⟩],
      { s with position := after, lineStart := true }, rest⟩
  else ⟨[], { s with position := after }, rest⟩

/-- A piece of a line. -/
def takePiece (s : State) (p : Piece) : Step :=
  let span : Span := ⟨s.position, s.position + Text.byteLength p.taken⟩
  let s := { s with position := span.stop }
  match p.meaning with
  | .nothing => ⟨[], s, p.rest⟩
  | .fault f => ⟨[.fault ⟨f, span⟩], s, p.rest⟩
  | .token kind =>
    let (depth, faults) := bracket s.depth kind span
    ⟨faults ++ [.token ⟨kind, span⟩], { s with depth := depth }, p.rest⟩

/-- One step through a text that starts with `c`. -/
def step (s : State) (c : Char) (rest : List Char) : Step :=
  if s.lineStart then s.startLine (c :: rest)
  else if c = '\n' then s.breakLine rest
  else s.takePiece (pieceAt c rest)

/-- What is left to do: the text, and the start of its first line. -/
def size (s : State) (cs : List Char) : Nat := 2 * cs.length + (if s.lineStart then 1 else 0)

theorem startLine_size_lt (s : State) (c : Char) (rest : List Char) (h : s.lineStart = true) :
    size (s.startLine (c :: rest)).next (s.startLine (c :: rest)).rest < s.size (c :: rest) := by
  have read := Indentation.read_rest_le (c :: rest)
  unfold startLine
  generalize Indentation.read (c :: rest) = i at read
  dsimp only
  split
  · simp [size, h]
  · rename_i d more shape
    rw [shape] at read
    split
    · simp only [size, h, List.length_cons, if_true] at read ⊢
      omega
    · split
      · have drop := (more.dropWhile_sublist (· ≠ '\n')).length_le
        split
        · simp [size, h]
        · rename_i next tail
          rw [tail] at drop
          simp only [size, h, List.length_cons, if_true] at read drop ⊢
          omega
      · simp only [size, h, List.length_cons, if_true] at read ⊢
        simp
        omega

theorem step_size_lt (s : State) (c : Char) (rest : List Char) :
    size (s.step c rest).next (s.step c rest).rest < s.size (c :: rest) := by
  unfold step
  split
  · exact startLine_size_lt s c rest ‹_›
  · split
    · unfold breakLine
      split <;> simp_all [size]
      omega
    · have shorter := pieceAt_rest_lt c rest
      unfold takePiece
      split <;> simp_all [size]

/-- All lexemes of a text, and the state at its end. -/
def run (s : State) (cs : List Char) : List Lexeme × State :=
  match cs with
  | [] => ([], s)
  | c :: rest =>
    let out := s.step c rest
    let (more, last) := run out.next out.rest
    (out.lexemes ++ more, last)
termination_by s.size cs
decreasing_by exact step_size_lt s c rest

/-- What closes the tokens at the end: a line break unless one stands there, a dedent for
every open block, and the end mark. -/
def closing (s : State) (tokens : List Token) : List Token :=
  let here : Span := ⟨s.position, s.position⟩
  let newline :=
    match tokens.getLast? with
    | none => []
    | some t => if t.kind.isLayout then [] else [⟨.newline, here⟩]
  newline ++ s.indents.map (fun _ => ⟨.dedent, here⟩) ++ [⟨.eof, here⟩]

end State
end Lexer

/-- The tokens of a source, or everything that is wrong with it. -/
def lex (source : String) : Except (List Problem) (List Token) :=
  let (lexemes, last) := Lexer.State.initial.run source.toList
  let unclosed : List Problem :=
    if last.depth = 0 then [] else [⟨.unclosedBracket, ⟨last.position, last.position⟩⟩]
  let faults := lexemes.filterMap Lexer.Lexeme.fault? ++ unclosed
  let tokens := lexemes.filterMap Lexer.Lexeme.token?
  if faults.isEmpty then .ok (tokens ++ last.closing tokens) else .error faults

end StagedMapping
