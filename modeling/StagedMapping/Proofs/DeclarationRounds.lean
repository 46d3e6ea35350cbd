import Mathlib.Data.List.TakeWhile
import StagedMapping.Proofs.ReaderMoves

/-! The rounds in which a source is read. A round reads one declaration, or meets a problem and
goes on at the next place that looks like the start of one. Whatever tokens there are, each place
that a reader comes to is one of the token list, not after its first end mark (`Cursor.At`), and
each round starts after the one before it (`Round.Follow`). So reading ends at the first end mark,
and there are no more problems than tokens (`Module.ofTokens_advances`). -/
namespace StagedMapping.Source
variable {n : Nat} {tokens : List Token}

/-- The position of the first end mark. -/
def firstEnd (tokens : List Token) : Nat := tokens.findIdx (·.kind.isEof)

theorem takeWhile_eq_take (tokens : List Token) :
    (tokens.takeWhile fun t => !t.kind.isEof) = tokens.take (firstEnd tokens) := by
  simp only [List.takeWhile_eq_take_findIdx_not, Bool.not_not, firstEnd]

theorem firstEnd_lt {last : Token} (hlast : last ∈ tokens) (hend : last.kind.isEof = true) :
    firstEnd tokens < tokens.length :=
  List.findIdx_lt_length_of_exists ⟨last, hlast, hend⟩

/-! ### Positions -/

namespace Cursor

/-- The place after the first `i` tokens. What is looked at there is in the list. -/
structure At (tokens : List Token) (c : Cursor n) (i : Nat) : Prop where
  /-- The first end mark is not passed. -/
  le : i ≤ firstEnd tokens
  ahead : c.ahead = (tokens.take (firstEnd tokens)).drop i
  /-- The token at the cursor. -/
  token : ∃ t, tokens[i]? = some t ∧ c.kind = t.kind ∧ c.span = t.span
  /-- The last token that was passed, or the first one if none was. -/
  previous : ∃ t, tokens[i - 1]? = some t ∧ c.previousEnd = t.span.stop
  ending : ∃ t, tokens[firstEnd tokens]? = some t ∧ t.kind = .eof ∧ c.endSpan = t.span

namespace At
variable {c d : Cursor n} {i j : Nat}

/-- The token at the cursor is the first one ahead, or the end mark. -/
theorem of_ahead (le : i ≤ firstEnd tokens)
    (ahead : c.ahead = (tokens.take (firstEnd tokens)).drop i)
    (previous : ∃ t, tokens[i - 1]? = some t ∧ c.previousEnd = t.span.stop)
    (ending : ∃ t, tokens[firstEnd tokens]? = some t ∧ t.kind = .eof ∧ c.endSpan = t.span) :
    c.At tokens i := by
  refine ⟨le, ahead, ?_, previous, ending⟩
  obtain ⟨last, found, isEnd, endSpan⟩ := ending
  have head : c.ahead[0]? = (tokens.take (firstEnd tokens))[i]? := by
    rw [ahead, List.getElem?_drop, Nat.add_zero]
  rcases Nat.lt_or_eq_of_le le with before | atEnd
  · rw [List.getElem?_take_of_lt before] at head
    have inside : i < tokens.length :=
      Nat.lt_trans before (List.getElem?_eq_some_iff.1 found).1
    refine ⟨tokens[i], List.getElem?_eq_getElem inside, ?_⟩
    rw [List.getElem?_eq_getElem inside, ← List.head?_eq_getElem?] at head
    obtain ⟨rest, hahead⟩ := List.head?_eq_some_iff.1 head
    rw [kind, span, hahead]
    exact ⟨rfl, rfl⟩
  · have none : c.ahead = [] := by
      rw [ahead, atEnd, List.drop_eq_nil_iff]
      exact List.length_take_le _ _
    refine ⟨last, atEnd ▸ found, ?_⟩
    rw [kind, span, none]
    exact ⟨isEnd.symm, endSpan⟩

theorem size (h : c.At tokens i) : c.size = firstEnd tokens - i := by
  obtain ⟨last, found, -⟩ := h.ending
  have inside : firstEnd tokens < tokens.length := (List.getElem?_eq_some_iff.1 found).1
  rw [Cursor.size, h.ahead, List.length_drop, List.length_take_of_le (Nat.le_of_lt inside)]

/-- Passing a token; the end mark stays ahead. -/
theorem advance (h : c.At tokens i) : c.advance.At tokens (min (i + 1) (firstEnd tokens)) := by
  have size := h.size
  cases hahead : c.ahead with
  | nil =>
    have stays : min (i + 1) (firstEnd tokens) = i := by
      have := h.le
      rw [Cursor.size, hahead, List.length_nil] at size
      omega
    rw [advance_of_nil hahead, stays]
    exact h
  | cons t rest =>
    have moves : min (i + 1) (firstEnd tokens) = i + 1 := by
      rw [Cursor.size, hahead, List.length_cons] at size
      omega
    have dropped := h.ahead
    rw [hahead] at dropped
    have found : tokens[i]? = some t := by
      have head := congrArg (·[0]?) dropped
      rw [List.getElem?_drop, Nat.add_zero, List.getElem?_take_of_lt (by omega)] at head
      exact head.symm
    obtain ⟨ahead, previousEnd, endSpan, -⟩ := advance_eq hahead
    rw [moves]
    refine of_ahead (by omega) ?_ ⟨t, found, previousEnd⟩ (endSpan ▸ h.ending)
    rw [ahead, ← List.tail_drop, ← dropped, List.tail_cons]

theorem rebase (h : c.At tokens i) : c.rebase.At tokens i :=
  ⟨h.le, h.ahead, h.token, h.previous, h.ending⟩

/-- Every place that a place leads to has a position in the list, and none before that. -/
theorem of_leads (h : c.At tokens i) (leads : c.Leads d) : ∃ j, i ≤ j ∧ d.At tokens j := by
  induction leads with
  | here => exact ⟨i, Nat.le_refl _, h⟩
  | advance _ ih =>
    obtain ⟨j, hj, hd⟩ := ih
    exact ⟨_, Nat.le_min.2 ⟨Nat.le_succ_of_le hj, Nat.le_trans hj hd.le⟩, hd.advance⟩
  | inNamespace _ ih =>
    obtain ⟨j, hj, hd⟩ := ih
    exact ⟨j, hj, ⟨hd.le, hd.ahead, hd.token, hd.previous, hd.ending⟩⟩

end At

theorem start_at {last : Token} (hlast : last ∈ tokens) (hend : last.kind.isEof = true) :
    (start tokens).At tokens 0 := by
  have inside := firstEnd_lt hlast hend
  have found : tokens[firstEnd tokens]? = some tokens[firstEnd tokens] :=
    List.getElem?_eq_getElem inside
  have isEnd : tokens[firstEnd tokens].kind.isEof = true :=
    List.findIdx_getElem (p := fun t : Token => t.kind.isEof) (w := inside)
  have eof : tokens[firstEnd tokens].kind = .eof := by
    revert isEnd
    cases tokens[firstEnd tokens].kind <;> simp [TokenKind.isEof]
  refine .of_ahead (Nat.zero_le _) ?_ ?_ ⟨_, found, eof, ?_⟩
  · rw [List.drop_zero]
    exact takeWhile_eq_take tokens
  · obtain ⟨first, rest, rfl⟩ := List.exists_cons_of_ne_nil (List.ne_nil_of_mem hlast)
    exact ⟨first, rfl, rfl⟩
  · show ((tokens.find? (·.kind.isEof)).map (·.span)).getD .none = _
    rw [List.find?_eq_getElem?_findIdx]
    show ((tokens[firstEnd tokens]?).map (·.span)).getD .none = _
    rw [found]
    rfl

theorem Leads.size_le {b c : Cursor n} (h : b.Leads c) : c.size ≤ b.size := by
  induction h with
  | here => exact Nat.le_refl _
  | @advance d _ ih => exact Nat.le_trans (d.advance_size ▸ Nat.sub_le _ _) ih
  | inNamespace _ ih => exact ih

end Cursor

/-! ### Rounds -/

/-- A round of reading declarations, from the place of a token. -/
structure Round where
  bound : Nat
  start : Cursor bound

namespace Round

/-- Where reading ends, or gives up. -/
def reached (r : Round) : Cursor r.bound :=
  match readDeclaration r.start with
  | .ok d => d.next
  | .error f => f.place

/-- Where reading goes on. -/
def resumed (r : Round) : Cursor r.bound :=
  match readDeclaration r.start with
  | .ok d => d.next
  | .error f => f.place.recover

/-- Where the next round starts, if there is one. -/
def next (r : Round) : Cursor r.bound := r.resumed.toDeclaration

def declaration? (r : Round) : Option Declaration :=
  match readDeclaration r.start with
  | .ok d => some d.value
  | .error _ => none

def problem? (r : Round) : Option Problem :=
  match readDeclaration r.start with
  | .ok _ => none
  | .error f => some f.problem

variable (r : Round)

theorem leads_reached : r.start.Leads r.reached := by
  have onward := readDeclaration_onward r.start .here
  unfold reached
  split
  · next d hd =>
    rw [hd] at onward
    exact onward
  · next f hf =>
    rw [hf] at onward
    exact onward

theorem leads_next : r.reached.Leads r.next := by
  unfold next resumed reached
  split
  · exact Cursor.Leads.here.toDeclaration
  · exact Cursor.Leads.here.recover.toDeclaration

/-- A round passes a token or more. A reader that gives up at the end mark has passed some, and
any other one leaves a token for the recovery. -/
theorem resumed_size_lt (h : r.start.size ≠ 0) : r.resumed.size < r.start.size := by
  have onward := readDeclaration_onward r.start .here
  unfold resumed
  split
  · next d _ => exact d.lt
  · next f hf =>
    rw [hf] at onward
    have := f.place.recover_size_le
    have := Cursor.Leads.size_le onward
    omega

end Round

namespace Cursor

/-- The round that starts at the next token that is not layout. -/
def round (c : Cursor n) : Round := ⟨_, c.toDeclaration.rebase⟩

theorem round_resumed_lt {c : Cursor n} (h : c.toDeclaration.size ≠ 0) :
    c.round.resumed.size < c.size :=
  Nat.lt_of_lt_of_le (c.round.resumed_size_lt h) c.toDeclaration_size_le

/-- The rounds from a place on. -/
def rounds {n : Nat} (c : Cursor n) : List Round :=
  if h : c.toDeclaration.size = 0 then []
  else
    have := c.round_resumed_lt h
    c.round :: c.round.resumed.rounds
termination_by c.size

end Cursor

theorem readDeclarations_round {c : Cursor n} (h : c.toDeclaration.size ≠ 0) :
    readDeclarations c =
      (c.round.declaration?.toList ++ (readDeclarations c.round.resumed).1,
        c.round.problem?.toList ++ (readDeclarations c.round.resumed).2) := by
  rw [readDeclarations, if_neg h]
  unfold Round.declaration? Round.problem? Round.resumed
  dsimp only [Cursor.round]
  cases readDeclaration c.toDeclaration.rebase <;> rfl

/-- The declarations and the problems of a source are those of its rounds. -/
theorem readDeclarations_eq_rounds {n : Nat} (c : Cursor n) : readDeclarations c =
    (c.rounds.filterMap Round.declaration?, c.rounds.filterMap Round.problem?) := by
  rw [Cursor.rounds]
  split
  · next ended =>
    rw [readDeclarations, if_pos ended]
    rfl
  · next ahead =>
    have := Cursor.round_resumed_lt ahead
    rw [readDeclarations_round ahead, readDeclarations_eq_rounds, List.filterMap_cons,
      List.filterMap_cons]
    congr 1
    · cases c.round.declaration? <;> rfl
    · cases c.round.problem? <;> rfl
termination_by c.size

namespace Round

/-- The rounds follow one another, from a position up to the first end mark. Each starts at a
token, comes to tokens of the list only, and is over at a later position. -/
inductive Follow (tokens : List Token) : Nat → List Round → Prop where
  | done : Follow tokens (firstEnd tokens) []
  | round {r : Round} {rest : List Round} {i j : Nat} (start : r.start.At tokens i)
    (places : ∀ c, r.start.Leads c → ∃ k, i ≤ k ∧ c.At tokens k)
    (reached : r.start.Leads r.reached) (next : r.next.At tokens j) (advances : i < j)
    (hrest : Follow tokens j rest) : Follow tokens i (r :: rest)

/-- Each round takes a token or more. -/
theorem Follow.length_le {rounds : List Round} {i : Nat} (h : Follow tokens i rounds) :
    i + rounds.length ≤ firstEnd tokens := by
  induction h with
  | done => exact Nat.le_refl _
  | round _ _ _ _ advances _ ih =>
    rw [List.length_cons]
    omega

end Round

theorem Cursor.At.follow {n : Nat} {c : Cursor n} {i : Nat} (h : c.toDeclaration.At tokens i) :
    Round.Follow tokens i c.rounds := by
  have size := h.size
  rw [Cursor.rounds]
  split
  · next ended =>
    have atEnd : i = firstEnd tokens := by
      have := h.le
      omega
    rw [atEnd]
    exact .done
  · next ahead =>
    have := Cursor.round_resumed_lt ahead
    have start : c.round.start.At tokens i := h.rebase
    obtain ⟨j, -, next⟩ := start.of_leads (c.round.leads_reached.trans c.round.leads_next)
    have advances : i < j := by
      have shorter : c.round.next.size < c.toDeclaration.size :=
        Nat.lt_of_le_of_lt c.round.resumed.toDeclaration_size_le (c.round.resumed_size_lt ahead)
      have := next.size
      omega
    exact .round start (fun d hd => start.of_leads hd) c.round.leads_reached next advances
      (follow next)
termination_by c.size

/-- Reading a token list that ends with an end mark has a result, that of the rounds from its first
declaration on. They follow one another up to the first end mark, and there are no more problems
than tokens. -/
theorem Module.ofTokens_advances {last : Token} (hlast : tokens.getLast? = some last)
    (hend : last.kind.isEof = true) :
    let rounds := (Cursor.start tokens).rounds
    Module.ofTokens tokens = (match rounds.filterMap Round.problem? with
        | [] => .ok ⟨rounds.filterMap Round.declaration?⟩
        | problems => .error problems) ∧
      (∃ i, (Cursor.start tokens).toDeclaration.At tokens i ∧ Round.Follow tokens i rounds) ∧
      firstEnd tokens < tokens.length ∧
      ∀ problems, Module.ofTokens tokens = .error problems → problems.length ≤ tokens.length := by
  intro rounds
  have hmem := List.mem_of_getLast? hlast
  obtain ⟨i, -, start⟩ := (Cursor.start_at hmem hend).of_leads Cursor.Leads.here.toDeclaration
  have inside := firstEnd_lt hmem hend
  have result : Module.ofTokens tokens = match rounds.filterMap Round.problem? with
      | [] => .ok ⟨rounds.filterMap Round.declaration?⟩
      | problems => .error problems := by
    rw [ofTokens, readDeclarations_eq_rounds]
    cases rounds.filterMap Round.problem? <;> rfl
  refine ⟨result, ⟨i, start, start.follow⟩, inside, fun problems h => ?_⟩
  rw [result] at h
  split at h <;> cases h
  have count : i + rounds.length ≤ firstEnd tokens := start.follow.length_le
  have := List.length_filterMap_le Round.problem? rounds
  omega

/-- Tokens out of place, and a class that breaks off at the first of two end marks. -/
def strayTokens : List Token :=
  [⟨.dedent, ⟨0, 0⟩⟩, ⟨.punctuation .rightParen, ⟨0, 1⟩⟩, ⟨.keyword .classWord, ⟨1, 6⟩⟩,
    ⟨.eof, ⟨6, 6⟩⟩, ⟨.indent, ⟨6, 6⟩⟩, ⟨.eof, ⟨6, 6⟩⟩]

theorem Module.ofTokens_advances_stray :
    strayTokens.getLast? = some ⟨.eof, ⟨6, 6⟩⟩ ∧ TokenKind.eof.isEof = true ∧
      firstEnd strayTokens = 3 ∧ (Cursor.start strayTokens).rounds.length = 2 ∧
      (∃ i, (Cursor.start strayTokens).toDeclaration.At strayTokens i ∧
        Round.Follow strayTokens i (Cursor.start strayTokens).rounds) ∧
      ∀ problems, Module.ofTokens strayTokens = .error problems → problems.length ≤ 6 := by
  obtain ⟨-, follow, -, count⟩ := @Module.ofTokens_advances strayTokens _ rfl rfl
  exact ⟨rfl, rfl, by decide +kernel, by decide +kernel, follow, count⟩

end StagedMapping.Source
