import StagedMapping.Proofs.ExprReading
import StagedMapping.Proofs.ExprText
import StagedMapping.Proofs.ParsedShape

/-! Written expressions read back. The text of an expression that was read is lexed and
read again to the same tree, up to places and parentheses, and that tree has the same text
(`readExpr_text`). Literals are asked to read back by themselves: a double beyond all
bounds, say, has a text that is a name. -/
namespace StagedMapping.Source
variable {n : Nat}

/-- The tokens before the first end mark, by kind. -/
theorem Cursor.kinds_start {tokens : List Token} {ks : List TokenKind}
    (h : tokens.map (·.kind) = ks ++ [.eof]) (hks : ∀ k ∈ ks, k.isEof = false) :
    (Cursor.start tokens).kinds = ks := by
  have ahead : (Cursor.start tokens).kinds =
      (tokens.map (·.kind)).takeWhile fun k => !k.isEof := by
    rw [List.takeWhile_map]
    rfl
  rw [ahead, h, List.takeWhile_append_of_pos fun k hk => by simp [hks k hk]]
  exact List.append_nil ks

/-- A proper expression whose literals read back is read back from its text. -/
theorem Expr.Proper.text_reads {e : Expr} (h : e.Proper Literal.LexesBack) :
    ∃ tokens, lex e.text = .ok tokens ∧
      Gives (readExpr (Cursor.start tokens)) fun s =>
        e.Restored s.value ∧ s.next.kinds = [.newline] := by
  obtain ⟨⟨tokens, lexed, kinds⟩, inline⟩ := h.lexes
  refine ⟨tokens, lexed, h.reads.2 (Cursor.kinds_start ?_ ?_) (.newline [])⟩
  · rw [kinds, List.append_assoc]
    rfl
  · exact List.forall_mem_append.2 ⟨inline, List.forall_mem_singleton.2 rfl⟩

/-- The text of an expression that was read, or of a part of it, is read to its end, and
gives the expression again up to places and parentheses, with the same text. -/
theorem readExpr_text {source : String} {tokens : List Token} (hlex : lex source = .ok tokens)
    {c : Cursor n} (hc : c.ahead ⊆ tokens) {s : Step Expr c} (hs : readExpr c = .ok s) {e : Expr}
    (he : e.Within s.value) (hl : ∀ span l, (Expr.literal span l).Within e → l.LexesBack) :
    ∃ tokens', lex e.text = .ok tokens' ∧ ∃ s', readExpr (Cursor.start tokens') = .ok s' ∧
      s'.next.kinds = [.newline] ∧ s'.value.bare = e.bare ∧ s'.value.text = e.text := by
  have named : c.Named := fun t ht => named_of_lex hlex t (hc ht)
  have written := (readExpr_written c named s hs).1.within he
  obtain ⟨tokens', lexes, s', hs', restored, rest⟩ := (written.restrict hl).text_reads
  exact ⟨tokens', lexes, s', hs', rest, restored.bare, restored.text⟩

/-- The whole number that is alone on its line. -/
def wholeNumber? : Except (List Problem) (List Token) → Option Int64
  | .ok [⟨.int value, _⟩, ⟨.newline, _⟩, ⟨.eof, _⟩] => some value
  | _ => none

theorem Literal.lexesBack_of_wholeNumber {value : Int64}
    (h : wholeNumber? (lex (Literal.int value).text) = some value) :
    (Literal.int value).LexesBack := by
  unfold wholeNumber? at h
  split at h
  · rename_i lexed
    cases h
    exact ⟨_, lexed, rfl⟩
  · cases h

/-- A minus sign before a sum in parentheses. -/
theorem readExpr_text_negated_sum : ∃ e : Expr, e.text = "-(a + 1)" ∧
    ∃ tokens', lex e.text = .ok tokens' ∧ ∃ s', readExpr (Cursor.start tokens') = .ok s' ∧
      s'.next.kinds = [.newline] ∧ s'.value.bare = e.bare ∧ s'.value.text = e.text := by
  have read : (match lex "-(a + 1)" with
      | .error _ => false
      | .ok tokens =>
        match readExpr (Cursor.start tokens) with
        | .ok s =>
          match s.value with
          | .unary _ .neg (.paren _ (.binary _ (.ident _ "a") .add (.literal _ (.int v)))) => v == 1
          | _ => false
        | .error _ => false) = true := by decide +kernel
  split at read
  case h_1 => cases read
  case h_2 tokens lexed =>
  split at read
  case h_2 => cases read
  case h_1 s hs =>
  split at read
  case h_2 => cases read
  case h_1 shape =>
  cases beq_iff_eq.1 read
  refine ⟨s.value, by rw [shape]; rfl,
    readExpr_text lexed (List.takeWhile_sublist _).subset hs .self ?_⟩
  rw [shape]
  intro span l h
  -- the only literal is the right operand of the sum
  cases h with | operand h =>
  cases h with | inner h =>
  cases h with
  | left h => cases h
  | right h =>
    cases h
    exact Literal.lexesBack_of_wholeNumber (by decide +kernel)

end StagedMapping.Source
