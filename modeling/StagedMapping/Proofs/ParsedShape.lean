import StagedMapping.Proofs.Grouping
import StagedMapping.Proofs.Scanning
import StagedMapping.Proofs.TokenView

/-! What the parser builds. The names among the tokens of a source are words that are not
reserved, and its numbers have no sign (`named_of_lex`); readers that start before such tokens
end before such tokens, so every type and every expression that is read is proper, whatever its
tokens (`readExpr_written`). `Ensures r P` says what holds if reading succeeds. -/
namespace StagedMapping

/-! ### Names and numbers among the tokens -/

/-- A number has no sign: the text of a float starts with a digit. -/
def Source.Literal.Unsigned : Source.Literal → Prop
  | .int n => 0 ≤ n.toInt
  | .float x => ∃ c cs, c.isDigit = true ∧ Number.readFloat (c :: cs) = some x
  | _ => True

/-- A name is a word that is not reserved, and a number has no sign. -/
structure TokenKind.Named (k : TokenKind) : Prop where
  name : ∀ name, k = .ident name → Lexer.IsName name
  literal : ∀ l, Source.literal? k = some l → l.Unsigned

theorem TokenKind.named_of_isIdent {k : TokenKind} (h : k.isIdent = false)
    (hl : Source.literal? k = none) : k.Named where
  name := by
    rintro name rfl
    cases h
  literal := by
    rw [hl]
    exact nofun

namespace Lexer

theorem isIdentPart_of_isIdentStart {c : Char} (h : isIdentStart c = true) :
    isIdentPart c = true := by
  simp only [isIdentStart, isIdentPart, Char.isAlphanum, Bool.or_eq_true] at *
  exact h.imp_left .inl

/-- The longest word at the front of a text is a word. -/
theorem isWord_takeWhile {c : Char} {cs : List Char} (hc : isIdentStart c = true) :
    IsWord (String.ofList ((c :: cs).takeWhile isIdentPart)) where
  start := by
    refine ⟨c, cs.takeWhile isIdentPart, ?_, hc⟩
    rw [String.toList_ofList, List.takeWhile_cons, if_pos (isIdentPart_of_isIdentStart hc)]
  parts := by
    rw [String.toList_ofList]
    exact List.all_eq_true.1 List.all_takeWhile

theorem named_wordKind {word : String} (h : IsWord word) : (wordKind word).Named where
  name name hname := by
    have free := hname
    unfold wordKind at hname
    split at hname <;> cases hname
    exact ⟨h, free⟩
  literal l hl := by
    unfold wordKind at hl
    split at hl
    · unfold Source.literal? at hl
      split at hl <;> cases hl <;> trivial
    · cases hl

theorem Leads.named {c : Char} {cs : List Char} {k : TokenKind} (h : Leads c cs k) : k.Named := by
  cases h with
  | word hc => exact named_wordKind (isWord_takeWhile hc)
  | string text =>
    refine ⟨nofun, ?_⟩
    rintro _ ⟨⟩
    trivial
  | int hc hvalue =>
    refine ⟨nofun, ?_⟩
    rintro _ ⟨⟩
    exact hvalue
  | float hc hvalue =>
    refine ⟨nofun, ?_⟩
    rintro _ ⟨⟩
    exact ⟨c, _, hc, hvalue⟩
  | operator | mark => exact TokenKind.named_of_isIdent rfl rfl

/-- The token of a lexeme, if it is one, is named properly. -/
def Lexeme.Named (l : Lexeme) : Prop := ∀ t, l = .token t → t.kind.Named

namespace Lexeme

theorem named_token {k : TokenKind} (h : k.Named) (span : Span) : (token ⟨k, span⟩).Named := by
  rintro _ ⟨⟩
  exact h

theorem named_fault (p : Problem) : (fault p).Named := fun _ h => by cases h

end Lexeme

namespace State

theorem named_dedents (span : Span) (n : Nat) : ∀ l ∈ dedents span n, l.Named := by
  cases n with
  | zero => exact List.forall_mem_nil _
  | succ n =>
    refine List.forall_mem_cons.2 ⟨Lexeme.named_token (TokenKind.named_of_isIdent rfl rfl) _, ?_⟩
    intro l hl
    rw [(List.mem_replicate.1 hl).2]
    exact Lexeme.named_token (TokenKind.named_of_isIdent rfl rfl) _

theorem named_settle (indents : List Nat) (width : Nat) (span : Span) :
    ∀ l ∈ (settle indents width span).1, l.Named := by
  unfold settle
  dsimp only
  split
  · exact List.forall_mem_singleton.2 (Lexeme.named_token (TokenKind.named_of_isIdent rfl rfl) _)
  split
  · refine List.forall_mem_append.2 ⟨?_, named_dedents _ _⟩
    split
    · exact List.forall_mem_nil _
    · exact List.forall_mem_singleton.2 (Lexeme.named_fault _)
  · exact List.forall_mem_nil _

theorem named_startLine (s : State) (cs : List Char) :
    ∀ l ∈ (s.startLine cs).lexemes, l.Named := by
  unfold startLine
  dsimp only
  split
  · exact List.forall_mem_nil _
  split
  · exact List.forall_mem_nil _
  split
  · split <;> exact List.forall_mem_nil _
  · exact named_settle _ _ _

theorem named_breakLine (s : State) (cs : List Char) :
    ∀ l ∈ (s.breakLine cs).lexemes, l.Named := by
  unfold breakLine
  dsimp only
  split
  · exact List.forall_mem_singleton.2 (Lexeme.named_token (TokenKind.named_of_isIdent rfl rfl) _)
  · exact List.forall_mem_nil _

theorem named_takePiece (s : State) {c : Char} {cs : List Char} :
    ∀ l ∈ (s.takePiece (pieceAt c cs)).lexemes, l.Named := by
  unfold takePiece
  dsimp only
  split
  · exact List.forall_mem_nil _
  · exact List.forall_mem_singleton.2 (Lexeme.named_fault _)
  · rename_i k meaning
    refine List.forall_mem_append.2 ⟨?_, List.forall_mem_singleton.2
      (Lexeme.named_token (leads_of_pieceAt meaning).named _)⟩
    rcases bracket_faults s.depth k
      ⟨s.position, s.position + Text.byteLength (pieceAt c cs).taken⟩ with clear | unmatched
    · rw [clear]
      exact List.forall_mem_nil _
    · rw [unmatched]
      exact List.forall_mem_singleton.2 (Lexeme.named_fault _)

theorem named_step (s : State) (c : Char) (cs : List Char) :
    ∀ l ∈ (s.step c cs).lexemes, l.Named := by
  unfold step
  split
  · exact named_startLine s _
  split
  · exact named_breakLine s cs
  · exact named_takePiece s

theorem named_run (s : State) (cs : List Char) : ∀ l ∈ (s.run cs).1, l.Named := by
  fun_induction run s cs with
  | case1 => exact List.forall_mem_nil _
  | case2 s c rest out more last hrun ih =>
    refine List.forall_mem_append.2 ⟨named_step s c rest, ?_⟩
    rw [hrun] at ih
    exact ih

theorem named_closing (s : State) (tokens : List Token) :
    ∀ t ∈ s.closing tokens, t.kind.Named := by
  unfold closing
  dsimp only
  refine List.forall_mem_append.2 ⟨List.forall_mem_append.2 ⟨?_, ?_⟩, ?_⟩
  · split
    · exact List.forall_mem_nil _
    split
    · exact List.forall_mem_nil _
    · exact List.forall_mem_singleton.2 (TokenKind.named_of_isIdent rfl rfl)
  · intro t ht
    obtain ⟨_, -, rfl⟩ := List.mem_map.1 ht
    exact TokenKind.named_of_isIdent rfl rfl
  · exact List.forall_mem_singleton.2 (TokenKind.named_of_isIdent rfl rfl)

end State
end Lexer

/-- The lexer gives no names but words that are not reserved, and no numbers with a sign. -/
theorem named_of_lex {source : String} {tokens : List Token} (h : lex source = .ok tokens) :
    ∀ t ∈ tokens, t.kind.Named := by
  obtain ⟨lexed, last, run, -, rfl⟩ := lex_eq_ok.1 h
  refine List.forall_mem_append.2 ⟨fun t ht => ?_, last.named_closing lexed⟩
  have named := Lexer.State.named_run Lexer.State.initial source.toList
  rw [run] at named
  exact named _ (List.mem_map_of_mem ht) t rfl

namespace Source
variable {n : Nat} {α : Type}

/-! ### What holds if reading succeeds -/

/-- If reading succeeds, its result satisfies `post`. -/
def Ensures {ε σ : Type} (r : Except ε σ) (post : σ → Prop) : Prop := ∀ s, r = .ok s → post s

namespace Ensures
variable {ε σ τ : Type} {r : Except ε σ} {post : σ → Prop}

theorem pure {s : σ} (h : post s) : Ensures (pure s : Except ε σ) post := by
  rintro _ ⟨⟩
  exact h

theorem error {e : ε} : Ensures (.error e : Except ε σ) post := by
  rintro _ ⟨⟩

theorem bind {f : σ → Except ε τ} {goal : τ → Prop} (h : Ensures r post)
    (hf : ∀ s, post s → Ensures (f s) goal) : Ensures (r >>= f) goal := by
  cases r with
  | error e => exact error
  | ok s => exact hf s (h s rfl)

end Ensures

namespace Cursor
variable {c : Cursor n}

/-- The names ahead are words that are not reserved, and the numbers have no sign. -/
def Named (c : Cursor n) : Prop := ∀ t ∈ c.ahead, t.kind.Named

theorem take?_eq_some {f : TokenKind → Option α} {s : Step α c} (h : c.take? f = some s) :
    ∃ t, c.ahead = t :: s.next.ahead ∧ f t.kind = some s.value := by
  unfold take? at h
  split at h
  · cases h
  · rename_i t rest hahead
    obtain ⟨a, ha, rfl⟩ := Option.map_eq_some_iff.1 h
    exact ⟨t, hahead, ha⟩

theorem Named.take? (hc : c.Named) {f : TokenKind → Option α} {s : Step α c}
    (h : c.take? f = some s) : s.next.Named := by
  obtain ⟨t, hahead, -⟩ := take?_eq_some h
  exact fun u hu => hc u (by rw [hahead]; exact List.mem_cons_of_mem t hu)

theorem Named.eat? (hc : c.Named) {p : TokenKind → Bool} {s : Step Unit c}
    (h : c.eat? p = some s) : s.next.Named := hc.take? h

theorem Named.expect (hc : c.Named) (p : TokenKind → Bool) (wanted : String) :
    Ensures (c.expect p wanted) fun s => s.next.Named := by
  unfold Cursor.expect
  split
  · exact .pure (hc.eat? ‹_›)
  · exact .error

theorem Named.name (hc : c.Named) {s : Step String c} (h : c.take? identifier? = some s) :
    Lexer.IsName s.value := by
  obtain ⟨t, hahead, ht⟩ := take?_eq_some h
  refine (hc t (by rw [hahead]; exact List.mem_cons_self)).name s.value ?_
  unfold identifier? at ht
  split at ht <;> cases ht
  assumption

theorem Named.literal (hc : c.Named) {s : Step Literal c} (h : c.take? literal? = some s) :
    s.value.Unsigned := by
  obtain ⟨t, hahead, ht⟩ := take?_eq_some h
  exact (hc t (by rw [hahead]; exact List.mem_cons_self)).literal s.value ht

theorem Named.identifier (hc : c.Named) :
    Ensures c.identifier fun s => Lexer.IsName s.value ∧ s.next.Named := by
  unfold Cursor.identifier
  split
  · rename_i s taken
    exact .pure ⟨hc.name taken, hc.take? taken⟩
  · exact .error

theorem Named.assigned? (hc : c.Named) {s : Step Ident c} (h : c.assigned? = some s) :
    Lexer.IsName s.value.text ∧ s.next.Named := by
  unfold Cursor.assigned? at h
  split at h <;> cases h
  rename_i name span eqSpan rest hahead
  refine ⟨(hc ⟨.ident name, span⟩ (by rw [hahead]; exact List.mem_cons_self)).name name rfl, ?_⟩
  intro u hu
  exact hc u (by rw [hahead]; exact List.mem_cons_of_mem _ (List.mem_cons_of_mem _ hu))

end Cursor

/-! ### Types -/

theorem separated_ensures {p : TokenKind → Bool} {item : (c : Cursor n) → Read α c}
    {good : α → Prop}
    (hitem : ∀ c : Cursor n, c.Named → Ensures (item c) fun s => good s.value ∧ s.next.Named)
    (c : Cursor n) (hc : c.Named) :
    Ensures (c.separated p item) fun s =>
      (s.value ≠ [] ∧ ∀ a ∈ s.value, good a) ∧ s.next.Named := by
  rw [Cursor.separated]
  refine (hitem c hc).bind fun first hfirst => ?_
  obtain ⟨hv, hn⟩ := hfirst
  split
  · exact .pure ⟨⟨List.cons_ne_nil _ _, List.forall_mem_singleton.2 hv⟩, hn⟩
  · rename_i sep eaten
    have := first.lt
    have := sep.lt
    refine (separated_ensures hitem sep.next (hn.eat? eaten)).bind fun more hmore => ?_
    obtain ⟨⟨-, hm⟩, hl⟩ := hmore
    exact .pure ⟨⟨List.cons_ne_nil _ _, List.forall_mem_cons.2 ⟨hv, hm⟩⟩, hl⟩
termination_by c.size

theorem readPath_ensures (c : Cursor n) (hc : c.Named) :
    Ensures (readPath c) fun s =>
      (s.value ≠ [] ∧ ∀ name ∈ s.value, Lexer.IsName name) ∧ s.next.Named :=
  separated_ensures (fun _ h => h.identifier) c hc

mutual

/-- Every type that is read is proper. -/
theorem readType_proper (c : Cursor n) (hc : c.Named) :
    Ensures (readType c) fun s => s.value.Proper ∧ s.next.Named := by
  rw [readType]
  refine (readPath_ensures c hc).bind fun path ⟨⟨hne, hp⟩, hn⟩ => ?_
  split
  · exact .pure ⟨.named hne hp, hn⟩
  · rename_i opening eaten
    have := path.lt
    have := opening.lt
    refine (readTypes_proper opening.next (hn.eat? eaten)).bind fun args ⟨⟨hargs, ha⟩, hl⟩ => ?_
    refine (hl.expect _ _).bind fun closing hclose => ?_
    exact .pure ⟨.applied hne hp hargs ha, hclose⟩
termination_by 2 * c.size

theorem readTypes_proper (c : Cursor n) (hc : c.Named) :
    Ensures (readTypes c) fun s =>
      (s.value ≠ [] ∧ ∀ t ∈ s.value, t.Proper) ∧ s.next.Named := by
  rw [readTypes]
  refine (readType_proper c hc).bind fun first ⟨hv, hn⟩ => ?_
  split
  · exact .pure ⟨⟨List.cons_ne_nil _ _, List.forall_mem_singleton.2 hv⟩, hn⟩
  · rename_i sep eaten
    have := first.lt
    have := sep.lt
    refine (readTypes_proper sep.next (hn.eat? eaten)).bind fun more ⟨⟨_, hm⟩, hl⟩ => ?_
    exact .pure ⟨⟨List.cons_ne_nil _ _, List.forall_mem_cons.2 ⟨hv, hm⟩⟩, hl⟩
termination_by 2 * c.size + 1

end

/-! ### Expressions -/

/-- Names and types are complete, numbers have no sign, and operands fit their operators. -/
structure Expr.Written (e : Expr) : Prop where
  proper : e.Proper Literal.Unsigned
  grouped : e.Grouped

namespace Expr.Written
variable {span : Span} {part e base lhs rhs : Expr} {name : String} {args : List Expr}

theorem within (hpart : part.Within e) (h : e.Written) : part.Written :=
  ⟨h.proper.within hpart, h.grouped.within hpart⟩

/-- The literals of a written expression may be restricted by what is known of them. -/
theorem restrict {P : Literal → Prop} (h : e.Written)
    (hl : ∀ span l, (Expr.literal span l).Within e → P l) : e.Proper P :=
  h.proper.restrict hl

theorem ident (hname : Lexer.IsName name) : (Expr.ident span name).Written :=
  ⟨.ident hname, .ident⟩

theorem literal {value : Literal} (h : value.Unsigned) : (Expr.literal span value).Written :=
  ⟨.literal h, .literal⟩

theorem field (h : base.Written) (hname : Lexer.IsName name) :
    (Expr.field span base name).Written :=
  ⟨.field h.proper hname, .field h.grouped⟩

theorem method (h : base.Written) (hname : Lexer.IsName name) (hargs : ∀ a ∈ args, a.Written) :
    (Expr.method span base name args).Written :=
  ⟨.method h.proper hname fun a ha => (hargs a ha).proper,
    .method h.grouped fun a ha => (hargs a ha).grouped⟩

theorem call (h : base.Written) (hf : base.isField = false) (hargs : ∀ a ∈ args, a.Written) :
    (Expr.call span base args).Written :=
  ⟨.call h.proper hf fun a ha => (hargs a ha).proper,
    .call h.grouped fun a ha => (hargs a ha).grouped⟩

theorem choice {value condition otherwise : Expr} (hv : value.Written) (hc : condition.Written)
    (ho : otherwise.Written) : (Expr.choice span value condition otherwise).Written :=
  ⟨.choice hv.proper hc.proper ho.proper, .choice hv.grouped hc.grouped ho.grouped⟩

theorem binary {op : BinaryOp} (hl : lhs.Written) (hr : rhs.Written)
    (fits : (Expr.binary span lhs op rhs).Fits) : (Expr.binary span lhs op rhs).Written :=
  ⟨.binary hl.proper hr.proper, .binary hl.grouped hr.grouped fits⟩

theorem unary {op : UnaryOp} (h : base.Written) (fits : (Expr.unary span op base).Fits) :
    (Expr.unary span op base).Written :=
  ⟨.unary h.proper, .unary h.grouped fits⟩

theorem construct {type : TypeExpr} {args : List Argument} (htype : type.Proper)
    (hargs : ∀ a ∈ args, (∀ name ∈ a.name?, Lexer.IsName name.text) ∧ a.value.Written) :
    (Expr.construct span type args).Written :=
  ⟨.construct htype (fun a ha => (hargs a ha).1) fun a ha => (hargs a ha).2.proper,
    .construct fun a ha => (hargs a ha).2.grouped⟩

theorem paren (h : base.Written) : (Expr.paren span base).Written :=
  ⟨.paren h.proper, .paren h.grouped⟩

end Expr.Written

-- One theorem for each reader, by the recursion of the readers themselves.
mutual

theorem readExpr_written (c : Cursor n) (hc : c.Named) :
    Ensures (readExpr c) fun s => s.value.Written ∧ s.next.Named := by
  rw [readExpr]
  refine (Level.read_written .disjunction c hc).bind fun value ⟨⟨hv, _⟩, hn⟩ => ?_
  split
  · exact .pure ⟨hv, hn⟩
  · rename_i word eaten
    have := value.lt
    have := word.lt
    refine (Level.read_written .disjunction word.next (hn.eat? eaten)).bind
      fun condition ⟨⟨hcond, _⟩, hcn⟩ => ?_
    have := condition.lt
    refine (hcn.expect _ _).bind fun other hother => ?_
    have := other.lt
    refine (readExpr_written other.next hother).bind fun otherwise ⟨ho, hon⟩ => ?_
    exact .pure ⟨.choice hv hcond ho, hon⟩
termination_by 32 * c.size + 18

/-- What is read at a level binds as tight as the level. -/
theorem Level.read_written (l : Level) (c : Cursor n) (hc : c.Named) :
    Ensures (l.read c) fun s =>
      (s.value.Written ∧ s.value.Binds l.precedence) ∧ s.next.Named := by
  rw [Level.read]
  split
  · rename_i op taken
    have := op.lt
    obtain ⟨_, -, leading⟩ := Cursor.take?_eq_some taken
    refine (Level.read_written l op.next (hc.take? taken)).bind fun operand ⟨⟨hv, hb⟩, hn⟩ => ?_
    exact .pure ⟨⟨.unary hv (.unary leading hb), .unary leading⟩, hn⟩
  · refine (Level.operand_written l c hc).bind fun first ⟨⟨hv, hb⟩, hn⟩ => ?_
    have := first.lt
    refine (Level.chain_written l first.value hv (hb.mono (Nat.le_succ _)) first.next hn).bind
      fun whole ⟨hw, hwn⟩ => ?_
    exact .pure ⟨hw, hwn⟩
termination_by 32 * c.size + 2 * l.rank + 5

/-- What is read as an operand of a level binds tighter. -/
theorem Level.operand_written (l : Level) (c : Cursor n) (hc : c.Named) :
    Ensures (l.operand c) fun s =>
      (s.value.Written ∧ s.value.Binds (l.precedence + 1)) ∧ s.next.Named := by
  rw [Level.operand]
  split
  · rename_i m h
    have := Level.rank_tighter h
    intro s hs
    obtain ⟨⟨hv, hb⟩, hn⟩ := Level.read_written m c hc s hs
    exact ⟨⟨hv, hb.mono (Level.precedence_tighter h)⟩, hn⟩
  · intro s hs
    obtain ⟨⟨hv, hb⟩, hn⟩ := readPostfix_written c hc s hs
    exact ⟨⟨hv, hb _⟩, hn⟩
termination_by 32 * c.size + 2 * l.rank + 4

/-- A chain that goes on stays as tight as its level. -/
theorem Level.chain_written (l : Level) (left : Expr) (hleft : left.Written)
    (htight : left.Binds l.precedence) (c : Cursor n) (hc : c.Named) :
    Ensures (l.chain left c) fun r =>
      (r.value.Written ∧ r.value.Binds l.precedence) ∧ r.next.Named := by
  rw [Level.chain]
  split
  · exact .pure ⟨⟨hleft, htight⟩, hc⟩
  · rename_i op taken
    have := op.lt
    have := l.rank_lt
    obtain ⟨_, -, operation⟩ := Cursor.take?_eq_some taken
    refine (Level.operand_written l op.next (hc.take? taken)).bind fun right ⟨⟨hv, hb⟩, hn⟩ => ?_
    have := right.lt
    refine (Level.chain_written l _ (.binary hleft hv (.binary operation htight hb))
      (.binary operation) right.next hn).bind fun whole ⟨hw, hwn⟩ => ?_
    exact .pure ⟨hw, hwn⟩
termination_by 32 * c.size

/-- What members and calls can follow has no operator. -/
theorem readPostfix_written (c : Cursor n) (hc : c.Named) :
    Ensures (readPostfix c) fun s =>
      (s.value.Written ∧ ∀ k, s.value.Binds k) ∧ s.next.Named := by
  rw [readPostfix]
  refine (readPrimary_written c hc).bind fun first ⟨⟨⟨hv, hb⟩, hf⟩, hn⟩ => ?_
  have := first.lt
  refine (readMembers_written first.value hv hb first.next hn (by rw [hf]; rintro ⟨⟩)).bind
    fun whole ⟨hw, hwn⟩ => ?_
  exact .pure ⟨hw, hwn⟩
termination_by 32 * c.size + 3

/-- A member that a parenthesis follows is read as a method, so it is never called. -/
theorem readMembers_written (base : Expr) (hbase : base.Written) (hb : ∀ k, base.Binds k)
    (c : Cursor n) (hc : c.Named)
    (hf : base.isField = true → c.eat? (·.isMark .leftParen) = none) :
    Ensures (readMembers base c) fun r =>
      (r.value.Written ∧ ∀ k, r.value.Binds k) ∧ r.next.Named := by
  rw [readMembers]
  split
  · rename_i dot eaten
    have := dot.lt
    refine (hc.eat? eaten).identifier.bind fun name ⟨hname, hn⟩ => ?_
    have := name.lt
    split
    · rename_i opening opened
      have := opening.lt
      refine (readArgs_written opening.next (hn.eat? opened)).bind fun args ⟨ha, hl⟩ => ?_
      have := args.le
      refine (hl.expect _ _).bind fun closing hclose => ?_
      have := closing.lt
      refine (readMembers_written _ (.method hbase hname ha) (.of_operator?_eq_none rfl rfl)
        closing.next hclose (by rintro ⟨⟩)).bind fun whole ⟨hw, hwn⟩ => ?_
      exact .pure ⟨hw, hwn⟩
    · rename_i none
      refine (readMembers_written _ (.field hbase hname) (.of_operator?_eq_none rfl rfl) name.next
        hn fun _ => none).bind fun whole ⟨hw, hwn⟩ => ?_
      exact .pure ⟨hw, hwn⟩
  · split
    · rename_i opening opened
      have := opening.lt
      refine (readArgs_written opening.next (hc.eat? opened)).bind fun args ⟨ha, hl⟩ => ?_
      have := args.le
      refine (hl.expect _ _).bind fun closing hclose => ?_
      have := closing.lt
      have callee : base.isField = false := by
        refine Bool.eq_false_iff.2 fun h => ?_
        rw [hf h] at opened
        cases opened
      refine (readMembers_written _ (.call hbase callee ha) (.of_operator?_eq_none rfl rfl)
        closing.next hclose (by rintro ⟨⟩)).bind fun whole ⟨hw, hwn⟩ => ?_
      exact .pure ⟨hw, hwn⟩
    · exact .pure ⟨⟨hbase, hb⟩, hc⟩
termination_by 32 * c.size

theorem readArgs_written (c : Cursor n) (hc : c.Named) :
    Ensures (readArgs c) fun r => (∀ e ∈ r.value, e.Written) ∧ r.next.Named := by
  rw [readArgs]
  split
  · exact .pure ⟨List.forall_mem_nil _, hc⟩
  · refine (readExpr_written c hc).bind fun first ⟨hv, hn⟩ => ?_
    split
    · exact .pure ⟨List.forall_mem_singleton.2 hv, hn⟩
    · rename_i sep eaten
      have := first.lt
      have := sep.lt
      refine (readArgs_written sep.next (hn.eat? eaten)).bind fun more ⟨hm, hl⟩ => ?_
      exact .pure ⟨List.forall_mem_cons.2 ⟨hv, hm⟩, hl⟩
termination_by 32 * c.size + 20

theorem readPrimary_written (c : Cursor n) (hc : c.Named) :
    Ensures (readPrimary c) fun s =>
      ((s.value.Written ∧ ∀ k, s.value.Binds k) ∧ s.value.isField = false) ∧ s.next.Named := by
  rw [readPrimary]
  split
  · rename_i s taken
    have hn : s.next.Named := hc.take? taken
    exact .pure ⟨⟨⟨.literal (hc.literal taken), .of_operator?_eq_none rfl rfl⟩, rfl⟩, hn⟩
  split
  · rename_i s taken
    have hn : s.next.Named := hc.take? taken
    exact .pure ⟨⟨⟨.ident (hc.name taken), .of_operator?_eq_none rfl rfl⟩, rfl⟩, hn⟩
  split
  · rename_i opening eaten
    have := opening.lt
    refine (readExpr_written opening.next (hc.eat? eaten)).bind fun inner ⟨hv, hn⟩ => ?_
    have := inner.lt
    refine (hn.expect _ _).bind fun closing hclose => ?_
    exact .pure ⟨⟨⟨.paren hv, .of_operator?_eq_none rfl rfl⟩, rfl⟩, hclose⟩
  split
  · rename_i word eaten
    have := word.lt
    refine (readType_proper word.next (hc.eat? eaten)).bind fun type ⟨ht, hn⟩ => ?_
    have := type.lt
    refine (hn.expect _ _).bind fun opening hopen => ?_
    have := opening.lt
    refine (readArguments_written opening.next hopen).bind fun args ⟨ha, hl⟩ => ?_
    refine (hl.expect _ _).bind fun closing hclose => ?_
    exact .pure ⟨⟨⟨.construct ht ha, .of_operator?_eq_none rfl rfl⟩, rfl⟩, hclose⟩
  · exact .error
termination_by 32 * c.size + 2

theorem readArguments_written (c : Cursor n) (hc : c.Named) :
    Ensures (readArguments c) fun r =>
      (∀ a ∈ r.value, (∀ name ∈ a.name?, Lexer.IsName name.text) ∧ a.value.Written) ∧
        r.next.Named := by
  rw [readArguments]
  split
  · exact .pure ⟨List.forall_mem_nil _, hc⟩
  · refine (readArgument_written c hc).bind fun first ⟨hv, hn⟩ => ?_
    split
    · exact .pure ⟨List.forall_mem_singleton.2 hv, hn⟩
    · rename_i sep eaten
      have := first.lt
      have := sep.lt
      refine (readArguments_written sep.next (hn.eat? eaten)).bind fun more ⟨hm, hl⟩ => ?_
      exact .pure ⟨List.forall_mem_cons.2 ⟨hv, hm⟩, hl⟩
termination_by 32 * c.size + 20

theorem readArgument_written (c : Cursor n) (hc : c.Named) :
    Ensures (readArgument c) fun s =>
      ((∀ name ∈ s.value.name?, Lexer.IsName name.text) ∧ s.value.value.Written) ∧
        s.next.Named := by
  rw [readArgument]
  split
  · rename_i name assigned
    obtain ⟨hname, hn⟩ := hc.assigned? assigned
    have := name.lt
    refine (readExpr_written name.next hn).bind fun value ⟨hv, hvn⟩ => ?_
    refine .pure ⟨⟨?_, hv⟩, hvn⟩
    rintro _ ⟨⟩
    exact hname
  · refine (readExpr_written c hc).bind fun value ⟨hv, hn⟩ => ?_
    refine .pure ⟨⟨?_, hv⟩, hn⟩
    rintro _ ⟨⟩
termination_by 32 * c.size + 19

end

end Source
end StagedMapping
