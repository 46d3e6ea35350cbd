import Mathlib.Data.List.Forall2
import StagedMapping.Proofs.TokenView
import StagedMapping.Source.Expr.Parser

/-! Readers on the kinds of the tokens ahead. A reader looks at nothing else to decide how it
goes on, so what it gives for the tokens of a text can be said of lists of kinds. `Gives r P`
says that reading succeeds, with a value and a place that satisfy `P`; the readers of paths
and types give back the types that were written (`TypeExpr.Proper.readsBack`). -/
namespace StagedMapping.Source
variable {n : Nat} {α : Type}

/-! ### Success -/

/-- Reading succeeds, with a result that satisfies `post`. -/
def Gives {ε σ : Type} (r : Except ε σ) (post : σ → Prop) : Prop := ∃ s, r = .ok s ∧ post s

namespace Gives
variable {ε σ τ : Type} {r : Except ε σ} {post post' : σ → Prop}

theorem pure {s : σ} (h : post s) : Gives (pure s : Except ε σ) post := ⟨s, rfl, h⟩

theorem bind {f : σ → Except ε τ} {goal : τ → Prop} (h : Gives r post)
    (hf : ∀ s, post s → Gives (f s) goal) : Gives (r >>= f) goal := by
  obtain ⟨s, rfl, hs⟩ := h
  exact hf s hs

theorem mono (h : Gives r post) (hp : ∀ s, post s → post' s) : Gives r post' := by
  obtain ⟨s, hr, hs⟩ := h
  exact ⟨s, hr, hp s hs⟩

end Gives

/-! ### Tokens ahead -/

namespace Cursor
variable {c : Cursor n} {k : TokenKind} {ks : List TokenKind}

/-- The kinds of the tokens up to the end mark. -/
def kinds (c : Cursor n) : List TokenKind := c.ahead.map (·.kind)

theorem kind_eq (h : c.kinds = k :: ks) : c.kind = k := by
  obtain ⟨t, rest, hahead, hk, -⟩ := List.map_eq_cons_iff.1 h
  rw [kind, hahead]
  exact hk

theorem take?_some {f : TokenKind → Option α} {a : α} (h : c.kinds = k :: ks)
    (hf : f k = some a) : ∃ s, c.take? f = some s ∧ s.value = a ∧ s.next.kinds = ks := by
  obtain ⟨t, rest, hahead, rfl, rfl⟩ := List.map_eq_cons_iff.1 h
  unfold take?
  split
  · simp_all
  · simp_all [kinds]

theorem take?_none {f : TokenKind → Option α} (h : ∀ k ∈ c.kinds.head?, f k = none) :
    c.take? f = none := by
  unfold take?
  split
  · rfl
  · simp_all [kinds]

theorem eat?_some {p : TokenKind → Bool} (h : c.kinds = k :: ks) (hp : p k = true) :
    ∃ s, c.eat? p = some s ∧ s.next.kinds = ks := by
  obtain ⟨s, taken, -, hks⟩ :=
    take?_some (f := fun k => if p k then some () else none) h (if_pos hp)
  exact ⟨s, taken, hks⟩

theorem eat?_none {p : TokenKind → Bool} (h : ∀ k ∈ c.kinds.head?, p k = false) :
    c.eat? p = none :=
  take?_none fun k hk => by simp [h k hk]

theorem expect_gives {p : TokenKind → Bool} {wanted : String} (h : c.kinds = k :: ks)
    (hp : p k = true) : Gives (c.expect p wanted) fun s => s.next.kinds = ks := by
  obtain ⟨s, eaten, hks⟩ := eat?_some h hp
  rw [expect, eaten]
  exact ⟨s, rfl, hks⟩

theorem identifier_gives {name : String} (h : c.kinds = .ident name :: ks) :
    Gives c.identifier fun s => s.value = name ∧ s.next.kinds = ks := by
  obtain ⟨s, taken, hs⟩ := take?_some (f := identifier?) h rfl
  rw [identifier, taken]
  exact ⟨s, rfl, hs⟩

theorem assigned?_some {name : String} (h : c.kinds = .ident name :: .operator .eq :: ks) :
    ∃ s, c.assigned? = some s ∧ s.value.text = name ∧ s.next.kinds = ks := by
  obtain ⟨⟨_, span⟩, more, hahead, rfl, hmore⟩ := List.map_eq_cons_iff.1 h
  obtain ⟨⟨_, eqSpan⟩, rest, rfl, rfl, rfl⟩ := List.map_eq_cons_iff.1 hmore
  unfold assigned?
  split
  · simp_all [kinds]
  · rename_i none
    exact (none _ _ _ _ hahead).elim

theorem assigned?_none (h : ∀ name ks, c.kinds ≠ .ident name :: .operator .eq :: ks) :
    c.assigned? = none := by
  unfold assigned?
  split
  · rename_i name span eqSpan rest hahead
    exact absurd (by rw [kinds, hahead]; rfl) (h name (rest.map (·.kind)))
  · rfl

end Cursor

/-! ### What is read again -/

/-- The same up to places and parentheses, with the same text. -/
structure Restores {β : Type} (bare : α → β) (text : α → String) (a b : α) : Prop where
  bare : bare b = bare a
  text : text b = text a

theorem Restores.list {β : Type} {bare : α → β} {text : α → String} {as bs : List α}
    (h : List.Forall₂ (Restores bare text) as bs) :
    bs.map bare = as.map bare ∧ bs.map text = as.map text := by
  induction h with
  | nil => exact ⟨rfl, rfl⟩
  | cons h _ ih =>
    exact ⟨congrArg₂ List.cons h.bare ih.1, congrArg₂ List.cons h.text ih.2⟩

abbrev TypeExpr.Restored : TypeExpr → TypeExpr → Prop := Restores TypeExpr.bare TypeExpr.text

/-! ### Paths and types -/

/-- What can follow a type comes next: neither its path nor its arguments go on. -/
inductive EndsType : List TokenKind → Prop where
  | comma (ks : List TokenKind) : EndsType (.punctuation .comma :: ks)
  | rightBracket (ks : List TokenKind) : EndsType (.punctuation .rightBracket :: ks)
  | leftParen (ks : List TokenKind) : EndsType (.punctuation .leftParen :: ks)

theorem EndsType.path {ks : List TokenKind} (h : EndsType ks) :
    ∀ k ∈ ks.head?, k.isMark .colonColon = false := by
  cases h <;> rintro _ ⟨⟩ <;> rfl

theorem EndsType.arguments {ks : List TokenKind} (h : EndsType ks) :
    ∀ k ∈ ks.head?, k.isMark .leftBracket = false := by
  cases h <;> rintro _ ⟨⟩ <;> rfl

theorem readPath_gives {path : List String} (hne : path ≠ []) {c : Cursor n}
    {ks : List TokenKind} (h : c.kinds = pathKinds path ++ ks)
    (hks : ∀ k ∈ ks.head?, k.isMark .colonColon = false) :
    Gives (readPath c) fun s => s.value = path ∧ s.next.kinds = ks := by
  unfold readPath
  induction path generalizing c with
  | nil => exact absurd rfl hne
  | cons name rest ih =>
    rw [Cursor.separated]
    cases rest with
    | nil =>
      refine (Cursor.identifier_gives h).bind fun first ⟨hv, hn⟩ => ?_
      rw [Cursor.eat?_none (by rw [hn]; exact hks)]
      exact ⟨_, rfl, congrArg (fun name => [name]) hv, hn⟩
    | cons other rest =>
      refine (Cursor.identifier_gives h).bind fun first ⟨hv, hn⟩ => ?_
      obtain ⟨sep, eaten, hsep⟩ := Cursor.eat?_some (p := (·.isMark .colonColon)) hn rfl
      rw [eaten]
      refine (ih (List.cons_ne_nil _ _) hsep).bind fun more ⟨hm, hl⟩ => ?_
      exact ⟨_, rfl, congrArg₂ List.cons hv hm, hl⟩

/-- Reading the tokens of the type gives it back. -/
def TypeExpr.ReadsBack (n : Nat) (t : TypeExpr) : Prop :=
  ∀ ⦃c : Cursor n⦄ ⦃ks : List TokenKind⦄, c.kinds = t.kinds ++ ks → EndsType ks →
    Gives (readType c) fun s => t.Restored s.value ∧ s.next.kinds = ks

theorem readTypes_gives {ts : List TypeExpr} (hne : ts ≠ []) (h : ∀ t ∈ ts, t.ReadsBack n)
    {c : Cursor n} {ks : List TokenKind}
    (hc : c.kinds = separated .comma (ts.map (·.kinds)) ++ .punctuation .rightBracket :: ks) :
    Gives (readTypes c) fun s => List.Forall₂ TypeExpr.Restored ts s.value ∧
      s.next.kinds = .punctuation .rightBracket :: ks := by
  induction ts generalizing c with
  | nil => exact absurd rfl hne
  | cons t rest ih =>
    rw [List.forall_mem_cons] at h
    rw [readTypes]
    cases rest with
    | nil =>
      refine (h.1 hc (.rightBracket ks)).bind fun first ⟨hv, hn⟩ => ?_
      rw [Cursor.eat?_none (by rw [hn]; rintro _ ⟨⟩; rfl)]
      exact ⟨_, rfl, .cons hv .nil, hn⟩
    | cons other rest =>
      rw [List.map_cons, List.map_cons, separated_cons_cons, List.append_assoc] at hc
      refine (h.1 hc (.comma _)).bind fun first ⟨hv, hn⟩ => ?_
      obtain ⟨sep, eaten, hsep⟩ := Cursor.eat?_some (p := (·.isMark .comma)) hn rfl
      rw [eaten]
      refine (ih (List.cons_ne_nil _ _) h.2 hsep).bind fun more ⟨hm, hl⟩ => ?_
      exact ⟨_, rfl, .cons hv hm, hl⟩

theorem TypeExpr.Proper.readsBack {t : TypeExpr} (h : t.Proper) : t.ReadsBack n := by
  induction h with
  | named hne _ =>
    intro c ks hc hks
    rw [readType]
    refine (readPath_gives hne hc hks.path).bind fun path ⟨hv, hn⟩ => ?_
    rw [Cursor.eat?_none (by rw [hn]; exact hks.arguments)]
    refine ⟨_, rfl, ⟨?_, ?_⟩, hn⟩
    · exact congrArg (TypeExpr.named .none) hv
    · exact congrArg Name.joinPath hv
  | applied hne _ hargs _ ih =>
    intro c ks hc hks
    rw [TypeExpr.kinds, TypeExpr.listKinds_eq, List.append_assoc, List.cons_append,
      List.append_assoc] at hc
    rw [readType]
    refine (readPath_gives hne hc (by rintro _ ⟨⟩; rfl)).bind fun path ⟨hv, hn⟩ => ?_
    obtain ⟨opening, eaten, hopen⟩ := Cursor.eat?_some (p := (·.isMark .leftBracket)) hn rfl
    rw [eaten]
    refine (readTypes_gives hargs ih hopen).bind fun args ⟨ha, hl⟩ => ?_
    refine (Cursor.expect_gives hl rfl).bind fun closing hclose => ?_
    obtain ⟨bare, text⟩ := Restores.list ha
    refine ⟨_, rfl, ⟨?_, ?_⟩, hclose⟩
    · simp only [Step.give, Step.andThen, TypeExpr.bare, TypeExpr.listBare_eq, hv, bare]
    · simp only [Step.give, Step.andThen, TypeExpr.text, TypeExpr.listText_eq, hv, text]

end StagedMapping.Source
