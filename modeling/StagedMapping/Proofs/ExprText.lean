import StagedMapping.Proofs.LiteralText

/-! The tokens of the text of an expression. `Writes text ks` says that a text is taken in
tokens of the kinds `ks` wherever a stop comes after it. Every construct of the language is
put together from texts that do, so the text of a proper expression is written in its tokens
(`Expr.Proper.writes`), and alone on a line it has no others (`Expr.Proper.lexes`). -/
namespace StagedMapping
namespace Lexer

/-- The text is taken in tokens of these kinds, if it ends at a stop. -/
def Writes (text : String) (kinds : List TokenKind) : Prop :=
  ∀ ⦃cs : List Char⦄ ⦃ks : List TokenKind⦄ ⦃rest : List Char⦄, Stops cs → Scans cs ks rest →
    Scans (text.toList ++ cs) (kinds ++ ks) rest

/-- Texts with a mark between each two of them. -/
theorem writes_separated {α : Type} {text : α → String} {kinds : α → List TokenKind}
    {sep : String} {mark : Punctuation}
    (hsep : ∀ ⦃cs : List Char⦄ ⦃ks : List TokenKind⦄ ⦃rest : List Char⦄, Scans cs ks rest →
      Stops (sep.toList ++ cs) ∧ Scans (sep.toList ++ cs) (.punctuation mark :: ks) rest)
    {items : List α} (h : ∀ a ∈ items, Writes (text a) (kinds a)) :
    Writes (sep.intercalate (items.map text)) (Source.separated mark (items.map kinds)) := by
  induction items with
  | nil => exact fun _ _ _ _ more => more
  | cons a others ih =>
    rw [List.forall_mem_cons] at h
    cases others with
    | nil => exact h.1
    | cons b others =>
      intro cs ks rest stop more
      obtain ⟨stop', marked⟩ := hsep (ih h.2 stop more)
      simp only [List.map_cons, String.intercalate_cons_cons, Source.separated,
        String.toList_append, List.append_assoc, List.cons_append]
      exact h.1 stop' marked

variable {cs rest : List Char} {ks : List TokenKind}

theorem scans_comma (more : Scans cs ks rest) :
    Scans (',' :: cs) (.punctuation .comma :: ks) rest := by
  have piece : pieceAt ',' cs = ⟨.token (.punctuation .comma), [','], cs⟩ := by
    cases cs <;> rfl
  exact .piece (by decide) piece rfl more

namespace Writes
variable {text : String} {kinds : List TokenKind}

theorem name {name : String} (h : IsName name) : Writes name [.ident name] := by
  intro cs ks rest stop more
  rw [← h.free]
  exact scans_word h.toIsWord stop more

/-- A list of the language: a comma and a blank between each two texts. -/
theorem commas {α : Type} {text : α → String} {kinds : α → List TokenKind} {items : List α}
    (h : ∀ a ∈ items, Writes (text a) (kinds a)) :
    Writes (String.intercalate ", " (items.map text))
      (Source.separated .comma (items.map kinds)) := by
  refine writes_separated (fun cs _ _ more => ?_) h
  exact ⟨stops_cons (c := ',') (by decide) (' ' :: cs), scans_comma (.blank more)⟩

theorem path {path : List String} (h : ∀ name ∈ path, IsName name) :
    Writes (Name.joinPath path) (Source.pathKinds path) := by
  have segments : Writes (String.intercalate "::" (path.map id)) (Source.pathKinds path) := by
    refine writes_separated (fun cs _ _ more => ?_) fun name hn => Writes.name (h name hn)
    exact ⟨stops_cons (c := ':') (by decide) (':' :: cs), .piece (by decide) rfl rfl more⟩
  rwa [List.map_id] at segments

/-- A text between brackets is taken up to the closing one. -/
theorem brackets {opening closing : Char} {left right : TokenKind} (h : Writes text kinds)
    (hb : Brackets opening left closing right) (more : Scans cs ks rest) :
    Scans (opening :: (text.toList ++ closing :: cs)) (left :: (kinds ++ right :: ks)) rest := by
  have stop : Stops (closing :: cs) := by
    cases hb <;> exact stops_cons (by decide) cs
  have inside := h stop (.done (closing :: cs))
  rw [List.append_nil] at inside
  exact .enclosed hb inside more

theorem enclose (h : Writes text kinds) (compound : Bool) :
    Writes (Source.enclose compound text) (Source.encloseKinds compound kinds) := by
  intro cs ks rest stop more
  cases compound with
  | false => exact h stop more
  | true =>
    simp only [Source.enclose, Source.encloseKinds, if_true, String.toList_append,
      List.append_assoc, List.cons_append]
    exact h.brackets .round more

/-- Arguments in parentheses. -/
theorem call {kinds : List (List TokenKind)} (h : Writes text (Source.separated .comma kinds))
    (more : Scans cs ks rest) :
    Scans ('(' :: (text.toList ++ ')' :: cs)) (Source.callKinds kinds ++ ks) rest := by
  rw [Source.callKinds, List.cons_append, List.append_assoc]
  exact h.brackets .round more

end Writes
end Lexer

namespace Source
open Lexer

theorem TypeExpr.Proper.writes {t : TypeExpr} (h : t.Proper) : Writes t.text t.kinds := by
  induction h with
  | named _ hp => exact .path hp
  | @applied span path args _ hp _ _ ih =>
    intro cs ks rest stop more
    have list : Writes (TypeExpr.listText args) (separated .comma (TypeExpr.listKinds args)) := by
      rw [TypeExpr.listText_eq, TypeExpr.listKinds_eq]
      exact .commas ih
    have bracketed := list.brackets .square more
    simp only [TypeExpr.text, TypeExpr.kinds, String.toList_append, List.append_assoc,
      List.cons_append]
    exact Writes.path hp (stops_cons (by decide) _) bracketed

end Source

/-! ### Operations and members -/

namespace Lexer
variable {cs rest : List Char} {ks : List TokenKind}

theorem scans_operation (op : BinaryOp) (more : Scans cs ks rest) :
    Scans (op.spelling.toList ++ ' ' :: cs) (op.kind :: ks) rest := by
  cases op with
  | and => exact scans_keyword .andWord (stops_cons (by decide) cs) (.blank more)
  | or => exact scans_keyword .orWord (stops_cons (by decide) cs) (.blank more)
  | _ => exact .piece (by decide) rfl rfl (.blank more)

/-- A minus sign is one wherever no arrow comes of it. -/
theorem scans_leading (op : UnaryOp) (hcs : ∀ c ∈ cs.head?, c ≠ '>') (more : Scans cs ks rest) :
    Scans (op.spelling.toList ++ cs) (op.kind :: ks) rest := by
  cases op with
  | not => exact scans_keyword .notWord (stops_cons (by decide) cs) (.blank more)
  | neg =>
    have piece : pieceAt '-' cs = ⟨.token (.operator .minus), ['-'], cs⟩ := by
      cases cs with
      | nil => rfl
      | cons d cs =>
        have arrow : double? '-' d = none := by
          have := hcs d rfl
          unfold double?
          split <;> simp_all
        show readSymbol '-' (d :: cs) = _
        simp [readSymbol, arrow, readSymbol.readOne, single?]
    exact .piece (by decide) piece rfl more

/-- A member stands after a point, and a number before it does not go on with it. -/
theorem scans_member {name : String} (hn : IsName name) (stop : Stops cs)
    (more : Scans cs ks rest) : Stops ('.' :: (name.toList ++ cs)) ∧
      Scans ('.' :: (name.toList ++ cs)) (.punctuation .dot :: .ident name :: ks) rest := by
  obtain ⟨c, xs, hs, start⟩ := hn.start
  have word := Writes.name hn stop more
  rw [hs, List.cons_append] at word ⊢
  have point : c ≠ '.' := by
    rintro rfl
    cases start
  constructor
  · refine ⟨by decide, by decide, by decide, fun _ d hd => ?_⟩
    cases hd
    exact isDigit_of_isIdentStart start
  · have piece : pieceAt '.' (c :: (xs ++ cs)) =
        ⟨.token (.punctuation .dot), ['.'], c :: (xs ++ cs)⟩ := by
      show readSymbol '.' (c :: (xs ++ cs)) = _
      simp [readSymbol, point, double?, readSymbol.readOne, single?]
    exact .piece (by decide) piece rfl word

/-! ### The start of a text -/

/-- The text starts with a token, and not so that a minus sign before it is an arrow. -/
def Opens (text : String) : Prop :=
  ∃ c cs, text.toList = c :: cs ∧ startsLine c = true ∧ c ≠ '>'

namespace Opens
variable {text : String}

theorem word (h : IsWord text) : Opens text := by
  obtain ⟨c, cs, hs, start⟩ := h.start
  refine ⟨c, cs, hs, startsLine_iff.2 ⟨?_, ?_, ?_⟩, ?_⟩
  · rintro (rfl | rfl | rfl) <;> cases start
  all_goals
    rintro rfl
    cases start

theorem append (h : Opens text) (more : String) : Opens (text ++ more) := by
  obtain ⟨c, cs, hs, start⟩ := h
  exact ⟨c, cs ++ more.toList, by rw [String.toList_append, hs, List.cons_append], start⟩

theorem parens (text : String) : Opens ("(" ++ text ++ ")") :=
  ⟨'(', _, by rw [String.toList_append, String.toList_append]; rfl, rfl, by decide⟩

theorem enclose (h : Opens text) (compound : Bool) : Opens (Source.enclose compound text) := by
  cases compound with
  | false => exact h
  | true => exact parens text

theorem number {tokens : List Token} {k : TokenKind}
    (hp : ∀ c ∈ text.toList, isNumberPart c = true) (h : lex text = .ok tokens)
    (hk : tokens.map (·.kind) = [k, .newline, .eof]) (hn : k.isNumber = true) : Opens text := by
  obtain ⟨c, cs, hs, digit, -⟩ := readNumber_of_lex hp h hk hn
  refine ⟨c, cs, hs, startsLine_of_isNumberPart (isNumberPart_of_isDigit digit), ?_⟩
  rintro rfl
  cases digit

end Opens
end Lexer

namespace Source
open Lexer

theorem Literal.LexesBack.opens {l : Literal} (h : l.LexesBack) : Opens l.text := by
  obtain ⟨tokens, lexes, kinds⟩ := h
  cases l with
  | int value => exact .number (fun _ => isNumberPart_of_mem_toString) lexes kinds rfl
  | float value => exact .number (isNumberPart_of_mem_render value) lexes kinds rfl
  | string text => exact ⟨'"', _, toList_quote text, rfl, by decide⟩
  | bool value =>
    cases value
    · exact .word (isWord_spelling .falseWord)
    · exact .word (isWord_spelling .trueWord)
  | none => exact .word (isWord_spelling .noneWord)

theorem Expr.Proper.opens {e : Expr} (h : e.Proper Literal.LexesBack) : Opens e.text := by
  induction h with
  | ident hname => exact .word hname.toIsWord
  | literal h => exact h.opens
  | field _ _ ih | method _ _ _ ih | call _ _ _ ih | choice _ _ _ ih | binary _ _ ih =>
    simp only [Expr.text, String.append_assoc]
    exact (ih.enclose _).append _
  | @unary _ op _ _ _ =>
    cases op with
    | neg => exact .append ⟨'-', [], rfl, rfl, by decide⟩ _
    | not => exact .append ⟨'n', _, rfl, rfl, by decide⟩ _
  | construct =>
    simp only [Expr.text, String.append_assoc]
    exact .append ⟨'n', _, rfl, rfl, by decide⟩ _
  | paren => exact .parens _

/-! ### Expressions -/

theorem Expr.writes_operand {e : Expr} (h : Writes e.text e.kinds) :
    Writes (enclose e.isCompound e.text) (encloseKinds e.isCompound e.kinds) :=
  h.enclose e.isCompound

theorem writes_args {args : List Expr} (h : ∀ a ∈ args, Writes a.text a.kinds) :
    Writes (Expr.listText args) (separated .comma (Expr.listKinds args)) := by
  rw [Expr.listText_eq, Expr.listKinds_eq]
  exact .commas h

theorem Argument.writes {a : Argument} (hname : ∀ name ∈ a.name?, IsName name.text)
    (h : Writes a.value.text a.value.kinds) : Writes a.text a.kinds := by
  cases a with
  | positional value => exact h
  | named name value =>
    intro cs ks rest stop more
    simp only [Argument.text, Argument.kinds, String.toList_append, List.append_assoc,
      List.cons_append]
    have assigned : Scans (" = ".toList ++ (value.text.toList ++ cs))
        (.operator .eq :: (value.kinds ++ ks)) rest :=
      .blank (.piece (by decide) rfl rfl (.blank (h stop more)))
    exact Writes.name (hname name rfl) (stops_cons (by decide) _) assigned

theorem writes_arguments {args : List Argument}
    (hnames : ∀ a ∈ args, ∀ name ∈ a.name?, IsName name.text)
    (h : ∀ a ∈ args, Writes a.value.text a.value.kinds) :
    Writes (Argument.listText args) (separated .comma (Argument.listKinds args)) := by
  rw [Argument.listText_eq, Argument.listKinds_eq]
  exact .commas fun a ha => Argument.writes (hnames a ha) (h a ha)

/-- The text of a proper expression is written in its tokens. -/
theorem Expr.Proper.writes {e : Expr} (h : e.Proper Literal.LexesBack) : Writes e.text e.kinds := by
  induction h with
  | ident hname => exact .name hname
  | literal h => exact fun _ _ _ stop more => h.scans stop more
  | field _ hname ih =>
    intro cs ks rest stop more
    obtain ⟨stop', member⟩ := scans_member hname stop more
    simp only [Expr.text, Expr.kinds, String.toList_append, List.append_assoc]
    exact Expr.writes_operand ih stop' member
  | method _ hname _ ih iha =>
    intro cs ks rest stop more
    obtain ⟨stop', member⟩ :=
      scans_member hname (stops_cons (c := '(') (by decide) _) ((writes_args iha).call more)
    simp only [Expr.text, Expr.kinds, String.toList_append, List.append_assoc, List.cons_append]
    exact Expr.writes_operand ih stop' member
  | call _ _ _ ih iha =>
    intro cs ks rest stop more
    simp only [Expr.text, Expr.kinds, String.toList_append, List.append_assoc]
    exact Expr.writes_operand ih (stops_cons (by decide) _) ((writes_args iha).call more)
  | choice _ _ _ ihv ihc iho =>
    intro cs ks rest stop more
    simp only [Expr.text, Expr.kinds, String.toList_append, List.append_assoc, List.cons_append]
    have last := Scans.blank (Expr.writes_operand iho stop more)
    have middle := Scans.blank (scans_keyword .elseWord (stops_cons (by decide) _) last)
    have condition := Scans.blank (Expr.writes_operand ihc (stops_cons (by decide) _) middle)
    have first := Scans.blank (scans_keyword .ifWord (stops_cons (by decide) _) condition)
    exact Expr.writes_operand ihv (stops_cons (by decide) _) first
  | binary _ _ ihl ihr =>
    intro cs ks rest stop more
    simp only [Expr.text, Expr.kinds, String.toList_append, List.append_assoc, List.cons_append]
    exact Expr.writes_operand ihl (stops_cons (by decide) _)
      (.blank (scans_operation _ (Expr.writes_operand ihr stop more)))
  | @unary _ op operand hoperand ih =>
    intro cs ks rest stop more
    obtain ⟨c, xs, hs, -, arrow⟩ := hoperand.opens.enclose operand.isCompound
    simp only [Expr.text, Expr.kinds, String.toList_append, List.append_assoc, List.cons_append]
    refine scans_leading op ?_ (Expr.writes_operand ih stop more)
    rw [hs]
    rintro _ ⟨⟩
    exact arrow
  | construct htype hnames _ iha =>
    intro cs ks rest stop more
    have args := (writes_arguments hnames iha).call more
    simp only [Expr.text, Expr.kinds, String.toList_append, List.append_assoc, List.cons_append]
    exact scans_keyword .newWord (stops_cons (by decide) _)
      (.blank (htype.writes (stops_cons (by decide) _) args))
  | paren _ ih => exact ih.enclose true

/-- Alone on a line, the text of a proper expression has the tokens of the expression. -/
theorem Expr.Proper.lexes {e : Expr} (h : e.Proper Literal.LexesBack) :
    (∃ tokens, lex e.text = .ok tokens ∧ tokens.map (·.kind) = e.kinds ++ [.newline, .eof]) ∧
      ∀ k ∈ e.kinds, k.isEof = false := by
  obtain ⟨c, cs, hs, start, -⟩ := h.opens
  have scan : Scans (e.text.toList ++ []) (e.kinds ++ []) [] := h.writes trivial (.done [])
  rw [List.append_nil, List.append_nil, hs] at scan
  exact ⟨scan.lex hs start, fun k hk => (scan.inline k hk).2⟩

end Source
end StagedMapping
