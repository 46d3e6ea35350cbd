import StagedMapping.Proofs.LiteralText

/-! The text of a string literal, read again. Quotes escape what could not stand between them,
and the lexer undoes every escape but one: a character that is written by its code point is read
as the text of that escape. So the text of a string is always one string token, and it is that
of the string exactly if no character is written so (`Literal.string_text_read`). -/
namespace StagedMapping
namespace Lexer

/-- The lexer makes one token of a quoted text. -/
theorem lex_quote (s : String) : ∃ tokens, lex (Text.quote s) = .ok tokens ∧
    tokens.map (·.kind) = [.string (String.ofList (s.toList.flatMap reread)), .newline, .eof] := by
  have scan : Scans ('"' :: (s.toList.flatMap Text.escapeChar ++ ['"']))
      [.string (String.ofList (s.toList.flatMap reread))] [] :=
    .piece (by decide) (pieceAt_quoteChars s.toList []) rfl (.done [])
  exact scan.lex (toList_quote s) (by decide)

/-- A backslash has an escape of its own. -/
theorem escapeChar_backslash : Text.escapeChar '\\' ≠ Text.codePointEscape '\\' := by decide

/-- A text is read again as itself only if nothing in it is written by its code point. -/
theorem flatMap_reread_eq_self_iff {cs : List Char} :
    cs.flatMap reread = cs ↔ ∀ c ∈ cs, Text.escapeChar c ≠ Text.codePointEscape c := by
  induction cs with
  | nil => simp
  | cons c rest ih =>
    rw [List.flatMap_cons, List.forall_mem_cons, ← ih]
    by_cases numbered : Text.escapeChar c = Text.codePointEscape c
    · -- the escape starts with a backslash, which is not written so itself
      obtain ⟨more, escape⟩ : ∃ more, Text.codePointEscape c = '\\' :: more := ⟨_, rfl⟩
      have first : c ≠ '\\' := by
        rintro rfl
        exact escapeChar_backslash numbered
      have text : reread c = '\\' :: more := (if_pos numbered).trans escape
      rw [text, List.cons_append, List.cons.injEq]
      exact ⟨fun h => absurd h.1.symm first, fun h => absurd numbered h.1⟩
    · have text : reread c = [c] := if_neg numbered
      rw [text, List.singleton_append, List.cons.injEq]
      exact ⟨fun h => ⟨numbered, h.2⟩, fun h => ⟨rfl, h.2⟩⟩

end Lexer

open Lexer in
/-- The text of a string literal is one string token. It is the string again exactly if quotes
show none of its characters by its code point; every such character is read as the text of its
escape. -/
theorem Source.Literal.string_text_read (s : String) : ∃ tokens text,
    lex (Literal.string s).text = .ok tokens ∧
      tokens.map (·.kind) = [.string text, .newline, .eof] ∧
      text = String.ofList (s.toList.flatMap reread) ∧
      (text = s ↔ ∀ c ∈ s.toList, Text.escapeChar c ≠ Text.codePointEscape c) := by
  obtain ⟨tokens, lexes, kinds⟩ := lex_quote s
  refine ⟨tokens, _, lexes, kinds, rfl, ?_⟩
  rw [← flatMap_reread_eq_self_iff, ← String.toList_inj, String.toList_ofList]

/-- A zero width space is written by its code point, and so it is read as eight characters. -/
theorem Source.Literal.zeroWidthSpace_not_lexesBack : ¬ (Literal.string "\u200b").LexesBack := by
  rintro ⟨tokens, lexes, kinds⟩
  obtain ⟨tokens', lexes', kinds'⟩ := Lexer.lex_quote "\u200b"
  replace lexes : lex (Text.quote "\u200b") = .ok tokens := lexes
  cases lexes.symm.trans lexes'
  have read : String.ofList ("\u200b".toList.flatMap Lexer.reread) = "\\u\x7b200b\x7d" := by
    decide +kernel
  rw [kinds', read] at kinds
  injection kinds with kind
  injection kind with text
  revert text
  decide

end StagedMapping
