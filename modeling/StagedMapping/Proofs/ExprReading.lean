import StagedMapping.Proofs.CursorReading

/-! Reading the tokens of an expression. What may follow decides how far a reader goes: the
levels of operators stop at what none of them takes (`Level.Halts`), and a whole expression
at what closes it (`EndsExpr`). An operand is read by the tightest level, which may still go
on with members, so `Expr.ReadsOperand` speaks of whatever comes of going on. Each construct
of the language reads back if its parts do (`Expr.Proper.reads`). -/
namespace StagedMapping.Source
variable {n : Nat}

abbrev Expr.Restored : Expr → Expr → Prop := Restores Expr.bare Expr.text

abbrev Argument.Restored : Argument → Argument → Prop := Restores Argument.bare Argument.text

/-- As `Expr.Restored`, for an expression that is read as an operand. -/
structure Expr.RestoredOperand (e e' : Expr) : Prop where
  bare : e'.bare = e.bare
  text : e'.text = enclose e.isCompound e.text
  simple : e'.isCompound = false

theorem Expr.RestoredOperand.of_simple {e e' : Expr} (h : e.Restored e')
    (hs : e.isCompound = false) (hs' : e'.isCompound = false) : e.RestoredOperand e' := by
  refine ⟨h.bare, ?_, hs'⟩
  rw [h.text, hs]
  rfl

/-! ### The first tokens -/

/-- A token that an operand can start with. -/
def startsOperand : TokenKind → Bool
  | .ident _ | .int _ | .float _ | .string _ => true
  | .keyword .trueWord | .keyword .falseWord | .keyword .noneWord | .keyword .newWord => true
  | .punctuation .leftParen => true
  | _ => false

theorem Level.leading?_of_startsOperand {k : TokenKind} (h : startsOperand k = true) (l : Level) :
    l.leading? k = none := by
  unfold leading?
  split
  · cases h
  · cases h
  · rfl

theorem closes_of_startsOperand {k : TokenKind} (h : startsOperand k = true) :
    k.isMark .rightParen = false := by
  unfold startsOperand at h
  split at h
  all_goals first | rfl | cases h

theorem Expr.exists_operand_start :
    (e : Expr) → ∃ k ks, e.operandKinds = k :: ks ∧ startsOperand k = true
  | .ident _ name => ⟨.ident name, [], rfl, rfl⟩
  | .literal _ value => by
    refine ⟨value.kind, [], rfl, ?_⟩
    cases value with
    | bool value => cases value <;> rfl
    | _ => rfl
  | .field _ base _ => by
    obtain ⟨k, ks, hk, start⟩ := base.exists_operand_start
    exact ⟨k, _, by rw [operandKinds_field, hk]; rfl, start⟩
  | .method _ receiver _ _ => by
    obtain ⟨k, ks, hk, start⟩ := receiver.exists_operand_start
    exact ⟨k, _, by rw [operandKinds_method, hk]; rfl, start⟩
  | .call _ callee _ => by
    obtain ⟨k, ks, hk, start⟩ := callee.exists_operand_start
    exact ⟨k, _, by rw [operandKinds_call, hk]; rfl, start⟩
  | .choice .. | .binary .. | .unary .. => ⟨_, _, rfl, rfl⟩
  | .construct .. | .paren .. => ⟨_, _, rfl, rfl⟩

/-- An expression does not start like a named argument. -/
theorem Expr.operandKinds_ne_assignment : (e : Expr) → ∀ ks : List TokenKind,
    (∀ k ∈ ks.head?, k.isOperator .eq = false) →
      ∀ name rest, e.operandKinds ++ ks ≠ .ident name :: .operator .eq :: rest
  | .ident _ _, ks, hks, _, rest, h => by
    obtain ⟨-, rfl⟩ := List.cons.inj h
    cases hks _ rfl
  | .literal _ value, ks, _, _, _, h => by
    have kind := (List.cons.inj h).1
    cases value with
    | bool value => cases value <;> cases kind
    | _ => cases kind
  | .field _ base _, ks, _, name, rest, h => by
    rw [operandKinds_field, List.append_assoc] at h
    exact base.operandKinds_ne_assignment _ (by rintro _ ⟨⟩; rfl) name rest h
  | .method _ receiver _ _, ks, _, name, rest, h => by
    rw [operandKinds_method, List.append_assoc] at h
    exact receiver.operandKinds_ne_assignment _ (by rintro _ ⟨⟩; rfl) name rest h
  | .call _ callee _, ks, _, name, rest, h => by
    rw [operandKinds_call, List.append_assoc] at h
    exact callee.operandKinds_ne_assignment _ (by rintro _ ⟨⟩; rfl) name rest h
  | .choice .., _, _, _, _, h | .binary .., _, _, _, _, h | .unary .., _, _, _, _, h
  | .construct .., _, _, _, _, h | .paren .., _, _, _, _, h => by cases h

theorem Expr.kinds_ne_assignment (e : Expr) {ks : List TokenKind}
    (hks : ∀ k ∈ ks.head?, k.isOperator .eq = false) :
    ∀ name rest, e.kinds ++ ks ≠ .ident name :: .operator .eq :: rest := by
  intro name rest h
  cases hs : e.isCompound with
  | false =>
    rw [← operandKinds_of_simple hs] at h
    exact e.operandKinds_ne_assignment ks hks name rest h
  | true =>
    cases e with
    | binary _ lhs op rhs =>
      rw [kinds, List.append_assoc] at h
      refine lhs.operandKinds_ne_assignment _ ?_ name rest h
      rintro _ ⟨⟩
      cases op <;> rfl
    | choice _ value _ _ =>
      rw [kinds, List.append_assoc] at h
      refine value.operandKinds_ne_assignment _ ?_ name rest h
      rintro _ ⟨⟩
      rfl
    | unary _ op _ => cases op <;> cases h
    | _ => cases hs

/-! ### What may follow -/

/-- Neither a member nor a call comes next. -/
def EndsMembers (ks : List TokenKind) : Prop :=
  ∀ k ∈ ks.head?, k.isMark .dot = false ∧ k.isMark .leftParen = false

/-- No operation of the level comes next. -/
def Level.Halts (l : Level) (ks : List TokenKind) : Prop := ∀ k ∈ ks.head?, l.operation? k = none

/-- What closes an expression comes next, so that nothing goes on with it. -/
inductive EndsExpr : List TokenKind → Prop where
  | comma (ks : List TokenKind) : EndsExpr (.punctuation .comma :: ks)
  | rightParen (ks : List TokenKind) : EndsExpr (.punctuation .rightParen :: ks)
  | newline (ks : List TokenKind) : EndsExpr (.newline :: ks)

namespace EndsExpr
variable {ks : List TokenKind}

theorem members (h : EndsExpr ks) : EndsMembers ks := by
  cases h <;> rintro _ ⟨⟩ <;> exact ⟨rfl, rfl⟩

theorem halts (h : EndsExpr ks) (l : Level) : l.Halts ks := by
  cases h <;> rintro _ ⟨⟩ <;> cases l <;> rfl

theorem noChoice (h : EndsExpr ks) : ∀ k ∈ ks.head?, k.isWord .ifWord = false := by
  cases h <;> rintro _ ⟨⟩ <;> rfl

theorem unassigned (h : EndsExpr ks) : ∀ k ∈ ks.head?, k.isOperator .eq = false := by
  cases h <;> rintro _ ⟨⟩ <;> rfl

end EndsExpr

/-! ### Levels of operators -/

namespace Level
variable {l m : Level} {c : Cursor n} {P : Expr → List TokenKind → Prop}

theorem chain_gives {e : Expr} (h : l.Halts c.kinds) :
    Gives (l.chain e c) fun r => r.value = e ∧ r.next.kinds = c.kinds := by
  rw [chain, Cursor.take?_none h]
  exact .pure ⟨rfl, rfl⟩

theorem operand_of_tighter (h : l.tighter? = some m) (c : Cursor n) : l.operand c = m.read c := by
  rw [operand]
  split
  · simp_all
  · simp_all

theorem operand_sign (c : Cursor n) : sign.operand c = readPostfix c := by
  rw [operand]
  rfl

/-- A level without operations to take gives what the tighter ones give. -/
theorem read_of_operand (hlead : ∀ k ∈ c.kinds.head?, l.leading? k = none)
    (h : Gives (l.operand c) fun s => P s.value s.next.kinds)
    (hstop : ∀ e ks, P e ks → l.Halts ks) :
    Gives (l.read c) fun s => P s.value s.next.kinds := by
  rw [read, Cursor.take?_none hlead]
  refine h.bind fun first hf => (chain_gives (hstop _ _ hf)).bind fun whole ⟨hv, hn⟩ => ?_
  rw [← hn, ← hv] at hf
  exact .pure hf

theorem eq_of_rank_eq (h : l.rank = m.rank) : l = m := by
  cases l <;> cases m <;> first | rfl | cases h

theorem exists_tighter (h : 0 < m.rank) : ∃ o, m.tighter? = some o ∧ m.rank = o.rank + 1 := by
  cases m with
  | sign => exact absurd h (by decide)
  | _ => exact ⟨_, rfl, rfl⟩

/-- What a level gives, every looser one gives that has no operation to take. -/
theorem read_of_tighter {m : Level} (hlm : l.rank ≤ m.rank)
    (hlead : ∀ o : Level, l.rank < o.rank → ∀ k ∈ c.kinds.head?, o.leading? k = none)
    (h : Gives (l.read c) fun s => P s.value s.next.kinds)
    (hstop : ∀ o : Level, l.rank < o.rank → o.rank ≤ m.rank → ∀ e ks, P e ks → o.Halts ks) :
    Gives (m.read c) fun s => P s.value s.next.kinds := by
  by_cases hm : l.rank = m.rank
  · rwa [eq_of_rank_eq hm] at h
  · have hlt : l.rank < m.rank := by omega
    -- the next tighter level is no tighter than `l`, and gives the same
    obtain ⟨o, ho, hrank⟩ := exists_tighter (m := m) (by omega)
    refine read_of_operand (hlead m hlt) ?_ (hstop m hlt (Nat.le_refl _))
    rw [operand_of_tighter ho]
    exact read_of_tighter (by omega) hlead h fun p hp hpo => hstop p hp (by omega)
termination_by m.rank

end Level

/-! ### Operands -/

/-- Reading the tokens of the expression as an operand gives whatever going on after it
gives; a member that a parenthesis follows would be a method. -/
def Expr.ReadsOperand (n : Nat) (e : Expr) : Prop :=
  ∀ ⦃c : Cursor n⦄ ⦃ks : List TokenKind⦄, c.kinds = e.operandKinds ++ ks →
    (e.isField = true → ∀ k ∈ ks.head?, k.isMark .leftParen = false) →
      ∀ post : Expr → List TokenKind → Prop,
        (∀ (e' : Expr) (m : Cursor n), e.RestoredOperand e' → m.kinds = ks →
          Gives (readMembers e' m) fun r => post r.value r.next.kinds) →
        Gives (readPostfix c) fun s => post s.value s.next.kinds

/-- Reading the tokens of the expression gives it back, if nothing goes on with it. -/
def Expr.ReadsBack (n : Nat) (e : Expr) : Prop :=
  ∀ ⦃c : Cursor n⦄ ⦃ks : List TokenKind⦄, c.kinds = e.kinds ++ ks → EndsExpr ks →
    Gives (readExpr c) fun s => e.Restored s.value ∧ s.next.kinds = ks

theorem readMembers_gives {e : Expr} {c : Cursor n} (h : EndsMembers c.kinds) :
    Gives (readMembers e c) fun r => r.value = e ∧ r.next.kinds = c.kinds := by
  rw [readMembers, Cursor.eat?_none fun k hk => (h k hk).1]
  dsimp only
  rw [Cursor.eat?_none fun k hk => (h k hk).2]
  exact .pure ⟨rfl, rfl⟩

theorem Expr.leading?_operandKinds {e : Expr} {c : Cursor n} {ks : List TokenKind}
    (hc : c.kinds = e.operandKinds ++ ks) (l : Level) :
    ∀ k ∈ c.kinds.head?, l.leading? k = none := by
  obtain ⟨k, more, hk, start⟩ := e.exists_operand_start
  rw [hc, hk]
  rintro _ ⟨⟩
  exact Level.leading?_of_startsOperand start l

namespace Expr.ReadsOperand
variable {e : Expr} {c : Cursor n} {ks : List TokenKind}

theorem tightest (h : e.ReadsOperand n) (hc : c.kinds = e.operandKinds ++ ks)
    (hks : EndsMembers ks) :
    Gives (readPostfix c) fun s => e.RestoredOperand s.value ∧ s.next.kinds = ks := by
  refine h hc (fun _ k hk => (hks k hk).2) (fun e' ks' => e.RestoredOperand e' ∧ ks' = ks) ?_
  rintro e' m he rfl
  refine (readMembers_gives hks).mono fun r ⟨hv, hn⟩ => ?_
  rw [hv, hn]
  exact ⟨he, rfl⟩

/-- An operand is read by every level that has no operation to take after it. -/
theorem read (h : e.ReadsOperand n) (hc : c.kinds = e.operandKinds ++ ks) (hks : EndsMembers ks)
    (l : Level) (hl : ∀ m : Level, m.rank ≤ l.rank → m.Halts ks) :
    Gives (l.read c) fun s => e.RestoredOperand s.value ∧ s.next.kinds = ks := by
  refine Level.read_of_tighter (l := .sign) (P := fun e' ks' => e.RestoredOperand e' ∧ ks' = ks)
    (Nat.zero_le _) (fun o _ => leading?_operandKinds hc o) ?_ ?_
  · refine Level.read_of_operand (P := fun e' ks' => e.RestoredOperand e' ∧ ks' = ks)
      (leading?_operandKinds hc _) ?_ ?_
    · rw [Level.operand_sign]
      exact h.tightest hc hks
    · rintro _ _ ⟨-, rfl⟩
      exact hl .sign (Nat.zero_le _)
  · rintro o _ ho _ _ ⟨-, rfl⟩
    exact hl o ho

theorem operand (h : e.ReadsOperand n) (hc : c.kinds = e.operandKinds ++ ks)
    (hks : EndsMembers ks) (l : Level) (hl : ∀ m : Level, m.rank < l.rank → m.Halts ks) :
    Gives (l.operand c) fun s => e.RestoredOperand s.value ∧ s.next.kinds = ks := by
  cases hrank : l.rank with
  | zero =>
    cases Level.eq_of_rank_eq (m := .sign) hrank
    rw [Level.operand_sign]
    exact h.tightest hc hks
  | succ r =>
    obtain ⟨m, hm, hlm⟩ := Level.exists_tighter (m := l) (by omega)
    rw [Level.operand_of_tighter hm]
    exact h.read hc hks m fun o ho => hl o (by omega)

end Expr.ReadsOperand

/-! ### Operations -/

namespace Level
variable {l : Level}

/-- The level that takes an operation between operands. -/
def ofBinary : BinaryOp → Level
  | .or => disjunction
  | .and => conjunction
  | .eq | .notEq | .lt | .ltEq | .gt | .gtEq => comparison
  | .add | .sub => sum
  | .mul | .div | .mod => product

/-- The level that takes an operation before its operand. -/
def ofUnary : UnaryOp → Level
  | .not => negation
  | .neg => sign

theorem operation?_kind (op : BinaryOp) : (ofBinary op).operation? op.kind = some op := by
  cases op <;> rfl

theorem leading?_kind (op : UnaryOp) : (ofUnary op).leading? op.kind = some op := by
  cases op <;> rfl

theorem halts_kind {op : BinaryOp} (h : l ≠ ofBinary op) (ks : List TokenKind) :
    l.Halts (op.kind :: ks) := by
  rintro _ ⟨⟩
  cases op <;> cases l <;> first | rfl | exact absurd rfl h

theorem leading?_kind_of_ne {op : UnaryOp} (h : l ≠ ofUnary op) : l.leading? op.kind = none := by
  cases op <;> cases l <;> first | rfl | exact absurd rfl h

end Level

theorem endsMembers_kind (op : BinaryOp) (ks : List TokenKind) : EndsMembers (op.kind :: ks) := by
  rintro _ ⟨⟩
  cases op <;> exact ⟨rfl, rfl⟩

/-- What a level gives is a whole expression if nothing goes on with it. -/
theorem readExpr_of_level {Q : Expr → Prop} {l : Level} {c : Cursor n} {ks : List TokenKind}
    (hlead : ∀ o : Level, l.rank < o.rank → ∀ k ∈ c.kinds.head?, o.leading? k = none)
    (h : Gives (l.read c) fun s => Q s.value ∧ s.next.kinds = ks) (hks : EndsExpr ks) :
    Gives (readExpr c) fun s => Q s.value ∧ s.next.kinds = ks := by
  have whole := Level.read_of_tighter (m := .disjunction)
    (P := fun e' ks' => Q e' ∧ ks' = ks) (Nat.le_of_lt_succ l.rank_lt) hlead h
    (by rintro o _ _ _ _ ⟨-, rfl⟩; exact hks.halts o)
  rw [readExpr]
  refine whole.bind fun s ⟨hv, hn⟩ => ?_
  rw [Cursor.eat?_none (by rw [hn]; exact hks.noChoice)]
  exact .pure ⟨hv, hn⟩

theorem Expr.ReadsOperand.whole {e : Expr} (h : e.ReadsOperand n) {c : Cursor n}
    {ks : List TokenKind} (hc : c.kinds = e.operandKinds ++ ks) (hks : EndsExpr ks) :
    Gives (readExpr c) fun s => e.RestoredOperand s.value ∧ s.next.kinds = ks :=
  readExpr_of_level (l := .disjunction) (fun o _ => leading?_operandKinds hc o)
    (h.read hc hks.members _ fun m _ => hks.halts m) hks

namespace Expr
variable {span : Span} {lhs rhs operand : Expr}

theorem ReadsOperand.chain {op : BinaryOp} (hr : rhs.ReadsOperand n) {c : Cursor n}
    {ks : List TokenKind} (hc : c.kinds = op.kind :: (rhs.operandKinds ++ ks)) (hks : EndsExpr ks)
    (left : Expr) :
    Gives ((Level.ofBinary op).chain left c) fun r =>
      (∃ span right, r.value = .binary span left op right ∧ rhs.RestoredOperand right) ∧
        r.next.kinds = ks := by
  rw [Level.chain]
  obtain ⟨o, taken, ho, hnext⟩ := Cursor.take?_some hc (Level.operation?_kind op)
  rw [taken]
  refine (hr.operand hnext hks.members _ fun m _ => hks.halts m).bind fun right ⟨hright, hn⟩ => ?_
  subst ho hn
  refine (Level.chain_gives (hks.halts _)).bind fun whole ⟨hv, hw⟩ => ?_
  exact .pure ⟨⟨_, right.value, hv, hright⟩, hw⟩

theorem readsBack_binary {op : BinaryOp} (hl : lhs.ReadsOperand n) (hr : rhs.ReadsOperand n) :
    (binary span lhs op rhs).ReadsBack n := by
  intro c ks hc hks
  rw [kinds, List.append_assoc, List.cons_append] at hc
  have lead := leading?_operandKinds (e := lhs) hc
  refine readExpr_of_level (Q := (binary span lhs op rhs).Restored) (l := .ofBinary op)
    (fun o _ => lead o) ?_ hks
  rw [Level.read, Cursor.take?_none (lead _)]
  refine (hl.operand hc (endsMembers_kind op _) _ fun m hm =>
    Level.halts_kind (by rintro rfl; exact Nat.lt_irrefl _ hm) _).bind fun left ⟨hleft, hn⟩ => ?_
  refine (hr.chain hn hks left.value).bind fun whole ⟨⟨_, right, hv, hright⟩, hw⟩ => ?_
  refine ⟨_, rfl, ⟨?_, ?_⟩, hw⟩
  · simp only [Step.andMaybe, hv, bare, hleft.bare, hright.bare]
  · simp only [Step.andMaybe, hv, text, hleft.text, hright.text, hleft.simple, hright.simple,
      enclose]
    rfl

theorem readsBack_unary {op : UnaryOp} (h : operand.ReadsOperand n) :
    (unary span op operand).ReadsBack n := by
  intro c ks hc hks
  have hc : c.kinds = op.kind :: (operand.operandKinds ++ ks) := hc
  refine readExpr_of_level (Q := (unary span op operand).Restored) (l := .ofUnary op) ?_ ?_ hks
  · intro o ho
    rw [hc]
    rintro _ ⟨⟩
    exact Level.leading?_kind_of_ne (by rintro rfl; exact Nat.lt_irrefl _ ho)
  · rw [Level.read]
    obtain ⟨o, taken, ho, hnext⟩ := Cursor.take?_some hc (Level.leading?_kind op)
    rw [taken]
    refine (h.read hnext hks.members _ fun m _ => hks.halts m).bind fun inner ⟨hi, hn⟩ => ?_
    refine .pure ⟨⟨?_, ?_⟩, hn⟩
    · simp only [Step.give, Step.andThen, bare, ho, hi.bare]
    · simp only [Step.give, Step.andThen, text, ho, hi.text, hi.simple]
      rfl

/-! ### Choices -/

/-- The parts of a choice stand before words that no operation is written with. -/
theorem ReadsOperand.beforeWord {e : Expr} (h : e.ReadsOperand n) {c : Cursor n} {k : Keyword}
    {ks : List TokenKind} (hc : c.kinds = e.operandKinds ++ .keyword k :: ks)
    (hk : k = .ifWord ∨ k = .elseWord) :
    Gives (Level.disjunction.read c) fun s =>
      e.RestoredOperand s.value ∧ s.next.kinds = .keyword k :: ks := by
  refine h.read hc ?_ _ fun m _ => ?_
  · rintro _ ⟨⟩
    exact ⟨rfl, rfl⟩
  · rintro _ ⟨⟩
    rcases hk with rfl | rfl <;> cases m <;> rfl

theorem readsBack_choice {value condition otherwise : Expr} (hvalue : value.ReadsOperand n)
    (hcondition : condition.ReadsOperand n) (hotherwise : otherwise.ReadsOperand n) :
    (choice span value condition otherwise).ReadsBack n := by
  intro c ks hc hks
  rw [kinds, List.append_assoc, List.cons_append, List.append_assoc, List.cons_append] at hc
  rw [readExpr]
  refine (hvalue.beforeWord hc (.inl rfl)).bind fun first ⟨hv, hn⟩ => ?_
  obtain ⟨word, eaten, hword⟩ := Cursor.eat?_some (p := (·.isWord .ifWord)) hn rfl
  rw [eaten]
  refine (hcondition.beforeWord hword (.inr rfl)).bind fun middle ⟨hm, hmn⟩ => ?_
  refine (Cursor.expect_gives hmn rfl).bind fun other hother => ?_
  refine (hotherwise.whole hother hks).bind fun last ⟨hl, hln⟩ => ?_
  refine .pure ⟨⟨?_, ?_⟩, hln⟩
  · simp only [Step.give, Step.andThen, bare, hv.bare, hm.bare, hl.bare]
  · simp only [Step.give, Step.andThen, text, hv.text, hm.text, hl.text, hv.simple, hm.simple,
      hl.simple]
    rfl

/-! ### Primary expressions -/

/-- A primary expression is an operand of the kind that it says. -/
theorem readsOperand_of_primary {e : Expr}
    (h : ∀ ⦃c : Cursor n⦄ ⦃ks : List TokenKind⦄, c.kinds = e.operandKinds ++ ks →
      Gives (readPrimary c) fun s => e.RestoredOperand s.value ∧ s.next.kinds = ks) :
    e.ReadsOperand n := by
  intro c ks hc _ post goal
  rw [readPostfix]
  refine (h hc).bind fun first ⟨hv, hn⟩ => ?_
  exact (goal _ _ hv hn).bind fun whole hw => .pure hw

/-- An expression that is no operation and no choice stands as an operand as it is. -/
theorem ReadsOperand.readsBack {e : Expr} (hs : e.isCompound = false) (h : e.ReadsOperand n) :
    e.ReadsBack n := by
  intro c ks hc hks
  rw [← operandKinds_of_simple hs] at hc
  refine (h.whole hc hks).mono fun s ⟨hv, hn⟩ => ⟨⟨hv.bare, ?_⟩, hn⟩
  rw [hv.text, hs]
  rfl

/-- Parentheses around an expression are read with it. -/
theorem ReadsBack.primary {e : Expr} (h : e.ReadsBack n) {c : Cursor n} {ks : List TokenKind}
    (hc : c.kinds = encloseKinds true e.kinds ++ ks) :
    Gives (readPrimary c) fun s =>
      (∃ span e', s.value = .paren span e' ∧ e.Restored e') ∧ s.next.kinds = ks := by
  have hc : c.kinds = .punctuation .leftParen :: ((e.kinds ++ [.punctuation .rightParen]) ++ ks) :=
    hc
  rw [List.append_assoc] at hc
  obtain ⟨opening, eaten, hopen⟩ := Cursor.eat?_some (p := (·.isMark .leftParen)) hc rfl
  have literal : c.take? literal? = none := Cursor.take?_none (by rw [hc]; rintro _ ⟨⟩; rfl)
  have ident : c.take? Cursor.identifier? = none :=
    Cursor.take?_none (by rw [hc]; rintro _ ⟨⟩; rfl)
  rw [readPrimary, literal]
  dsimp only
  rw [ident]
  dsimp only
  rw [eaten]
  refine (h hopen (.rightParen ks)).bind fun inner ⟨hv, hn⟩ => ?_
  refine (Cursor.expect_gives hn rfl).bind fun closing hclose => ?_
  exact .pure ⟨⟨_, inner.value, rfl, hv⟩, hclose⟩

theorem ReadsBack.readsOperand {e : Expr} (compound : e.isCompound = true)
    (h : e.ReadsBack n) : e.ReadsOperand n := by
  refine readsOperand_of_primary fun c ks hc => ?_
  rw [operandKinds, compound] at hc
  refine (h.primary hc).mono fun s hs => ?_
  obtain ⟨⟨_, e', hv, he⟩, hn⟩ := hs
  refine ⟨⟨?_, ?_, ?_⟩, hn⟩
  · rw [hv, bare, he.bare]
  · rw [hv, text, he.text, compound]
    rfl
  · rw [hv]
    rfl

theorem readsOperand_paren {inner : Expr} (h : inner.ReadsBack n) :
    (paren span inner).ReadsOperand n := by
  refine readsOperand_of_primary fun c ks hc => ?_
  refine (h.primary hc).mono fun s hs => ?_
  obtain ⟨⟨_, e', hv, he⟩, hn⟩ := hs
  refine ⟨⟨?_, ?_, ?_⟩, hn⟩
  · rw [hv, bare, bare, he.bare]
  · rw [hv, text, text, he.text]
    rfl
  · rw [hv]
    rfl

theorem literal?_kind (l : Literal) : literal? l.kind = some l := by
  cases l with
  | bool value => cases value <;> rfl
  | _ => rfl

theorem readsOperand_literal {l : Literal} : (literal span l).ReadsOperand n := by
  refine readsOperand_of_primary fun c ks hc => ?_
  obtain ⟨s, taken, hv, hn⟩ := Cursor.take?_some (k := l.kind) hc (literal?_kind l)
  rw [readPrimary, taken]
  exact .pure ⟨⟨congrArg (literal .none) hv, congrArg Literal.text hv, rfl⟩, hn⟩

theorem readsOperand_ident {name : String} : (ident span name).ReadsOperand n := by
  refine readsOperand_of_primary fun c ks hc => ?_
  have hc : c.kinds = .ident name :: ks := hc
  obtain ⟨s, taken, hv, hn⟩ := Cursor.take?_some (f := Cursor.identifier?) hc rfl
  rw [readPrimary, Cursor.take?_none (f := literal?) (by rw [hc]; rintro _ ⟨⟩; rfl), taken]
  exact .pure ⟨⟨congrArg (ident .none) hv, hv, rfl⟩, hn⟩

end Expr

/-! ### Arguments -/

/-- No expression starts with a closing parenthesis. -/
theorem Expr.kind_of_kinds {e : Expr} {c : Cursor n} {ks : List TokenKind}
    (hc : c.kinds = e.kinds ++ ks) : c.kind.isMark .rightParen = false := by
  obtain ⟨k, more, hk, closes⟩ : ∃ k more, e.kinds = k :: more ∧ k.isMark .rightParen = false := by
    cases hs : e.isCompound with
    | false =>
      obtain ⟨k, more, hk, start⟩ := e.exists_operand_start
      exact ⟨k, more, by rw [← operandKinds_of_simple hs, hk], closes_of_startsOperand start⟩
    | true =>
      cases e with
      | binary _ lhs _ _ =>
        obtain ⟨k, more, hk, start⟩ := lhs.exists_operand_start
        exact ⟨k, _, by rw [kinds, ← operandKinds, hk]; rfl, closes_of_startsOperand start⟩
      | choice _ value _ _ =>
        obtain ⟨k, more, hk, start⟩ := value.exists_operand_start
        exact ⟨k, _, by rw [kinds, ← operandKinds, hk]; rfl, closes_of_startsOperand start⟩
      | unary _ op _ => exact ⟨op.kind, _, rfl, by cases op <;> rfl⟩
      | _ => cases hs
  rw [hk] at hc
  rw [Cursor.kind_eq hc]
  exact closes

theorem readArgs_gives {es : List Expr} (h : ∀ e ∈ es, e.ReadsBack n) {c : Cursor n}
    {ks : List TokenKind}
    (hc : c.kinds = separated .comma (es.map (·.kinds)) ++ .punctuation .rightParen :: ks) :
    Gives (readArgs c) fun r => List.Forall₂ Expr.Restored es r.value ∧
      r.next.kinds = .punctuation .rightParen :: ks := by
  induction es generalizing c with
  | nil =>
    rw [readArgs, if_pos (by rw [Cursor.kind_eq hc]; rfl)]
    exact .pure ⟨.nil, hc⟩
  | cons e rest ih =>
    rw [List.forall_mem_cons] at h
    cases rest with
    | nil =>
      have hc : c.kinds = e.kinds ++ .punctuation .rightParen :: ks := hc
      rw [readArgs, if_neg (by simp [Expr.kind_of_kinds hc])]
      refine (h.1 hc (.rightParen ks)).bind fun first ⟨hv, hn⟩ => ?_
      rw [Cursor.eat?_none (by rw [hn]; rintro _ ⟨⟩; rfl)]
      exact .pure ⟨.cons hv .nil, hn⟩
    | cons other rest =>
      rw [List.map_cons, List.map_cons, separated_cons_cons, List.append_assoc] at hc
      rw [readArgs, if_neg (by simp [Expr.kind_of_kinds hc])]
      refine (h.1 hc (.comma _)).bind fun first ⟨hv, hn⟩ => ?_
      obtain ⟨sep, eaten, hsep⟩ := Cursor.eat?_some (p := (·.isMark .comma)) hn rfl
      rw [eaten]
      refine (ih h.2 hsep).bind fun more ⟨hm, hl⟩ => ?_
      exact .pure ⟨.cons hv hm, hl⟩

/-- Reading the tokens of the argument gives it back, named or not. -/
def Argument.ReadsBack (n : Nat) (a : Argument) : Prop :=
  ∀ ⦃c : Cursor n⦄ ⦃ks : List TokenKind⦄, c.kinds = a.kinds ++ ks → EndsExpr ks →
    c.kind.isMark .rightParen = false ∧
      Gives (readArgument c) fun s => a.Restored s.value ∧ s.next.kinds = ks

theorem Argument.readsBack {a : Argument} (h : a.value.ReadsBack n) : a.ReadsBack n := by
  intro c ks hc hks
  cases a with
  | positional value =>
    have hc : c.kinds = value.kinds ++ ks := hc
    refine ⟨Expr.kind_of_kinds hc, ?_⟩
    have unassigned : c.assigned? = none := by
      refine Cursor.assigned?_none fun name rest assigned => ?_
      exact value.kinds_ne_assignment hks.unassigned name rest (hc ▸ assigned)
    rw [readArgument, unassigned]
    refine (h hc hks).bind fun s ⟨hv, hn⟩ => .pure ⟨⟨?_, hv.text⟩, hn⟩
    exact congrArg Argument.positional hv.bare
  | named name value =>
    have h : value.ReadsBack n := h
    have hc : c.kinds = .ident name.text :: .operator .eq :: (value.kinds ++ ks) := hc
    refine ⟨by rw [Cursor.kind_eq hc]; rfl, ?_⟩
    obtain ⟨s, assigned, hname, hnext⟩ := Cursor.assigned?_some hc
    rw [readArgument, assigned]
    refine (h hnext hks).bind fun s ⟨hv, hn⟩ => .pure ⟨⟨?_, ?_⟩, hn⟩
    · simp only [Step.give, Argument.bare, hname, hv.bare]
    · simp only [Step.give, Argument.text, hname, hv.text]

theorem readArguments_gives {args : List Argument} (h : ∀ a ∈ args, a.ReadsBack n) {c : Cursor n}
    {ks : List TokenKind}
    (hc : c.kinds = separated .comma (args.map (·.kinds)) ++ .punctuation .rightParen :: ks) :
    Gives (readArguments c) fun r => List.Forall₂ Argument.Restored args r.value ∧
      r.next.kinds = .punctuation .rightParen :: ks := by
  induction args generalizing c with
  | nil =>
    rw [readArguments, if_pos (by rw [Cursor.kind_eq hc]; rfl)]
    exact .pure ⟨.nil, hc⟩
  | cons a rest ih =>
    rw [List.forall_mem_cons] at h
    cases rest with
    | nil =>
      obtain ⟨closes, reads⟩ := h.1 hc (.rightParen ks)
      rw [readArguments, if_neg (by simp [closes])]
      refine reads.bind fun first ⟨hv, hn⟩ => ?_
      rw [Cursor.eat?_none (by rw [hn]; rintro _ ⟨⟩; rfl)]
      exact .pure ⟨.cons hv .nil, hn⟩
    | cons other rest =>
      rw [List.map_cons, List.map_cons, separated_cons_cons, List.append_assoc] at hc
      obtain ⟨closes, reads⟩ := h.1 hc (.comma _)
      rw [readArguments, if_neg (by simp [closes])]
      refine reads.bind fun first ⟨hv, hn⟩ => ?_
      obtain ⟨sep, eaten, hsep⟩ := Cursor.eat?_some (p := (·.isMark .comma)) hn rfl
      rw [eaten]
      refine (ih h.2 hsep).bind fun more ⟨hm, hl⟩ => ?_
      exact .pure ⟨.cons hv hm, hl⟩

/-! ### Members and calls -/

section Members
variable {e : Expr} {name : String} {args : List Expr} {c : Cursor n} {ks : List TokenKind}
  {post : Expr → List TokenKind → Prop}

theorem readMembers_field (hc : c.kinds = .punctuation .dot :: .ident name :: ks)
    (hks : ∀ k ∈ ks.head?, k.isMark .leftParen = false)
    (h : ∀ (span : Span) (m : Cursor n), m.kinds = ks →
      Gives (readMembers (.field span e name) m) fun r => post r.value r.next.kinds) :
    Gives (readMembers e c) fun r => post r.value r.next.kinds := by
  obtain ⟨dot, eaten, hdot⟩ := Cursor.eat?_some (p := (·.isMark .dot)) hc rfl
  rw [readMembers, eaten]
  refine (Cursor.identifier_gives hdot).bind fun word ⟨hname, hn⟩ => ?_
  rw [Cursor.eat?_none (by rw [hn]; exact hks)]
  subst hname
  exact (h _ _ hn).bind fun whole hw => .pure hw

theorem readMembers_method (hargs : ∀ a ∈ args, a.ReadsBack n)
    (hc : c.kinds = .punctuation .dot :: .ident name :: (callKinds (args.map (·.kinds)) ++ ks))
    (h : ∀ (span : Span) (args' : List Expr) (m : Cursor n),
      List.Forall₂ Expr.Restored args args' → m.kinds = ks →
      Gives (readMembers (.method span e name args') m) fun r => post r.value r.next.kinds) :
    Gives (readMembers e c) fun r => post r.value r.next.kinds := by
  rw [callKinds, List.cons_append, List.append_assoc] at hc
  obtain ⟨dot, eaten, hdot⟩ := Cursor.eat?_some (p := (·.isMark .dot)) hc rfl
  rw [readMembers, eaten]
  refine (Cursor.identifier_gives hdot).bind fun word ⟨hname, hn⟩ => ?_
  obtain ⟨opening, eaten', hopen⟩ := Cursor.eat?_some (p := (·.isMark .leftParen)) hn rfl
  rw [eaten']
  subst hname
  refine (readArgs_gives hargs hopen).bind fun read ⟨ha, hl⟩ => ?_
  refine (Cursor.expect_gives hl rfl).bind fun closing hclose => ?_
  exact (h _ _ _ ha hclose).bind fun whole hw => .pure hw

theorem readMembers_call (hargs : ∀ a ∈ args, a.ReadsBack n)
    (hc : c.kinds = callKinds (args.map (·.kinds)) ++ ks)
    (h : ∀ (span : Span) (args' : List Expr) (m : Cursor n),
      List.Forall₂ Expr.Restored args args' → m.kinds = ks →
      Gives (readMembers (.call span e args') m) fun r => post r.value r.next.kinds) :
    Gives (readMembers e c) fun r => post r.value r.next.kinds := by
  rw [callKinds, List.cons_append, List.append_assoc] at hc
  obtain ⟨opening, eaten, hopen⟩ := Cursor.eat?_some (p := (·.isMark .leftParen)) hc rfl
  rw [readMembers, Cursor.eat?_none (p := (·.isMark .dot)) (by rw [hc]; rintro _ ⟨⟩; rfl)]
  dsimp only
  rw [eaten]
  refine (readArgs_gives hargs hopen).bind fun read ⟨ha, hl⟩ => ?_
  refine (Cursor.expect_gives hl rfl).bind fun closing hclose => ?_
  exact (h _ _ _ ha hclose).bind fun whole hw => .pure hw

end Members

namespace Expr
variable {span : Span} {base : Expr} {name : String} {args : List Expr}

theorem readsOperand_field (h : base.ReadsOperand n) :
    (field span base name).ReadsOperand n := by
  intro c ks hc hks post goal
  rw [operandKinds_field, List.append_assoc] at hc
  refine h hc (fun _ => by rintro _ ⟨⟩; rfl) post fun base' m hb hm => ?_
  refine readMembers_field hm (hks rfl) fun span' m' hm' =>
    goal _ m' (.of_simple ⟨?_, ?_⟩ rfl rfl) hm'
  · simp only [bare, hb.bare]
  · simp only [text, hb.text, hb.simple]
    rfl

theorem readsOperand_method (h : base.ReadsOperand n) (hargs : ∀ a ∈ args, a.ReadsBack n) :
    (method span base name args).ReadsOperand n := by
  intro c ks hc _ post goal
  rw [operandKinds_method, listKinds_eq, List.append_assoc] at hc
  refine h hc (fun _ => by rintro _ ⟨⟩; rfl) post fun base' m hb hm => ?_
  refine readMembers_method hargs hm fun span' args' m' ha hm' => ?_
  obtain ⟨bares, texts⟩ := Restores.list ha
  refine goal _ m' (.of_simple ⟨?_, ?_⟩ rfl rfl) hm'
  · simp only [bare, hb.bare, listBare_eq, bares]
  · simp only [text, hb.text, hb.simple, listText_eq, texts]
    rfl

theorem readsOperand_call (hf : base.isField = false) (h : base.ReadsOperand n)
    (hargs : ∀ a ∈ args, a.ReadsBack n) : (call span base args).ReadsOperand n := by
  intro c ks hc _ post goal
  rw [operandKinds_call, listKinds_eq, List.append_assoc] at hc
  -- a member would take the parenthesis for its own
  refine h hc (fun hf' => by rw [hf] at hf'; cases hf') post fun base' m hb hm => ?_
  refine readMembers_call hargs hm fun span' args' m' ha hm' => ?_
  obtain ⟨bares, texts⟩ := Restores.list ha
  refine goal _ m' (.of_simple ⟨?_, ?_⟩ rfl rfl) hm'
  · simp only [bare, hb.bare, listBare_eq, bares]
  · simp only [text, hb.text, hb.simple, listText_eq, texts]
    rfl

theorem readsOperand_construct {type : TypeExpr} {args : List Argument} (htype : type.Proper)
    (hargs : ∀ a ∈ args, a.value.ReadsBack n) : (construct span type args).ReadsOperand n := by
  refine readsOperand_of_primary fun c ks hc => ?_
  have hc : c.kinds =
      .keyword .newWord :: (type.kinds ++ callKinds (Argument.listKinds args) ++ ks) := hc
  rw [Argument.listKinds_eq, callKinds, List.append_assoc, List.cons_append,
    List.append_assoc] at hc
  have literal : c.take? literal? = none := Cursor.take?_none (by rw [hc]; rintro _ ⟨⟩; rfl)
  have ident : c.take? Cursor.identifier? = none :=
    Cursor.take?_none (by rw [hc]; rintro _ ⟨⟩; rfl)
  have paren : c.eat? (·.isMark .leftParen) = none :=
    Cursor.eat?_none (by rw [hc]; rintro _ ⟨⟩; rfl)
  obtain ⟨word, eaten, hword⟩ := Cursor.eat?_some (p := (·.isWord .newWord)) hc rfl
  rw [readPrimary, literal]
  dsimp only
  rw [ident]
  dsimp only
  rw [paren]
  dsimp only
  rw [eaten]
  refine (htype.readsBack hword (.leftParen _)).bind fun read ⟨ht, hn⟩ => ?_
  refine (Cursor.expect_gives hn rfl).bind fun opening hopen => ?_
  refine (readArguments_gives (fun a ha => Argument.readsBack (hargs a ha)) hopen).bind
    fun list ⟨ha, hl⟩ => ?_
  refine (Cursor.expect_gives hl rfl).bind fun closing hclose => ?_
  obtain ⟨bares, texts⟩ := Restores.list ha
  refine .pure ⟨.of_simple ⟨?_, ?_⟩ rfl rfl, hclose⟩
  · simp only [Step.give, Step.andThen, Step.andMaybe, bare, ht.bare, Argument.listBare_eq, bares]
  · simp only [Step.give, Step.andThen, Step.andMaybe, text, ht.text, Argument.listText_eq, texts]

end Expr

/-! ### Proper expressions -/

/-- Every proper expression is read back from its tokens, alone and as an operand. -/
theorem Expr.Proper.reads {P : Literal → Prop} {e : Expr} (h : e.Proper P) :
    e.ReadsOperand n ∧ e.ReadsBack n := by
  have simple {e : Expr} (hs : e.isCompound = false) (h : e.ReadsOperand n) :
      e.ReadsOperand n ∧ e.ReadsBack n := ⟨h, h.readsBack hs⟩
  have compound {e : Expr} (hs : e.isCompound = true) (h : e.ReadsBack n) :
      e.ReadsOperand n ∧ e.ReadsBack n := ⟨h.readsOperand hs, h⟩
  induction h with
  | ident _ => exact simple rfl readsOperand_ident
  | literal _ => exact simple rfl readsOperand_literal
  | field _ _ ih => exact simple rfl (readsOperand_field ih.1)
  | method _ _ _ ih iha => exact simple rfl (readsOperand_method ih.1 fun a ha => (iha a ha).2)
  | call _ hf _ ih iha => exact simple rfl (readsOperand_call hf ih.1 fun a ha => (iha a ha).2)
  | choice _ _ _ ihv ihc iho => exact compound rfl (readsBack_choice ihv.1 ihc.1 iho.1)
  | binary _ _ ihl ihr => exact compound rfl (readsBack_binary ihl.1 ihr.1)
  | unary _ ih => exact compound rfl (readsBack_unary ih.1)
  | construct htype _ _ iha =>
    exact simple rfl (readsOperand_construct htype fun a ha => (iha a ha).2)
  | paren _ ih => exact simple rfl (readsOperand_paren ih.2)

end StagedMapping.Source
