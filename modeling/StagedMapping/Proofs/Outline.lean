import Mathlib.Data.List.Sort
import StagedMapping.Proofs.TokenPlaces

/-! Where the nodes of a tree are written. An outline keeps of a tree its spans alone. It is
nested (`Outline.Nested`) if each node stands in the text, and its parts stand in it one after
the other: they form a `Row` between the start of the node and its end. Rows are put together
at their ends (`Row.append`), and, of parts that do not overlap, by inserting those of one into
the other (`pairwise_interleave`). -/
namespace StagedMapping.Source

/-- Where a node is written, and its parts in the order written. -/
inductive Outline where
  | node (span : Span) (parts : List Outline)

namespace Outline

def span : Outline → Span
  | node span _ => span

mutual

/-- The spans of a node and of all nodes in it. -/
@[simp]
def spans : Outline → List Span
  | node span parts => span :: listSpans parts

@[simp]
def listSpans : List Outline → List Span
  | [] => []
  | o :: rest => o.spans ++ listSpans rest

end

theorem listSpans_eq (parts : List Outline) : listSpans parts = parts.flatMap spans := by
  induction parts with
  | nil => rfl
  | cons o rest ih => rw [listSpans, ih, List.flatMap_cons]

theorem listSpans_map {α : Type} (f : α → Outline) (items : List α) :
    listSpans (items.map f) = items.flatMap fun a => (f a).spans := by
  rw [listSpans_eq, List.flatMap_map]

theorem listSpans_flatMap {α : Type} (f : α → List Outline) (items : List α) :
    listSpans (items.flatMap f) = items.flatMap fun a => listSpans (f a) := by
  rw [listSpans_eq, List.flatMap_assoc]
  simp only [listSpans_eq]

@[simp]
theorem listSpans_append (parts more : List Outline) :
    listSpans (parts ++ more) = listSpans parts ++ listSpans more := by
  rw [listSpans_eq, listSpans_eq, listSpans_eq, List.flatMap_append]

/-- One node ends before the other starts. -/
def Before (a b : Outline) : Prop := a.span.stop ≤ b.span.start

instance : DecidableRel Before := fun a b => inferInstanceAs (Decidable (a.span.stop ≤ b.span.start))

/-- Nodes between two offsets, one after the other. -/
structure Row (lo : Nat) (parts : List Outline) (hi : Nat) : Prop where
  le : lo ≤ hi
  within : ∀ p ∈ parts, lo ≤ p.span.start ∧ p.span.stop ≤ hi
  inOrder : parts.Pairwise Before

/-- Every node stands in the text, and its parts stand in it, one after the other. -/
inductive Nested (text : List Char) : Outline → Prop where
  | node {span : Span} {parts : List Outline} (inside : span.Inside text)
      (row : Row span.start parts span.stop) (nested : ∀ p ∈ parts, Nested text p) :
      Nested text (node span parts)

namespace Nested
variable {text : List Char} {o a b c : Outline}

theorem leaf {s : Span} (h : s.Inside text) : (Outline.node s []).Nested text :=
  .node h ⟨h.ordered, List.forall_mem_nil _, .nil⟩ (List.forall_mem_nil _)

theorem inside (h : o.Nested text) : o.span.Inside text := by
  cases h
  assumption

theorem spans_inside (h : o.Nested text) : ∀ s ∈ o.spans, s.Inside text := by
  induction h with
  | @node span parts inside _ _ ih =>
    rw [spans, listSpans_eq]
    refine List.forall_mem_cons.2 ⟨inside, fun s hs => ?_⟩
    obtain ⟨p, hp, hs⟩ := List.mem_flatMap.1 hs
    exact ih p hp s hs

/-- Where there is a node in between. -/
theorem before_trans (h : b.Nested text) (hab : a.Before b) (hbc : b.Before c) : a.Before c :=
  Nat.le_trans hab (Nat.le_trans h.inside.ordered hbc)

end Nested

/-! ### Rows -/

namespace Row
variable {text : List Char} {lo mid next hi : Nat} {p : Outline} {parts more : List Outline}

theorem singleton (h : p.span.start ≤ p.span.stop) (start : lo ≤ p.span.start)
    (stop : p.span.stop ≤ hi) : Row lo [p] hi :=
  ⟨Nat.le_trans start (Nat.le_trans h stop), List.forall_mem_singleton.2 ⟨start, stop⟩,
    List.pairwise_singleton ..⟩

theorem append (h : Row lo parts mid) (apart : mid ≤ next) (h' : Row next more hi) :
    Row lo (parts ++ more) hi where
  le := Nat.le_trans h.le (Nat.le_trans apart h'.le)
  within := List.forall_mem_append.2
    ⟨fun p hp => ⟨(h.within p hp).1,
        Nat.le_trans (h.within p hp).2 (Nat.le_trans apart h'.le)⟩,
      fun p hp => ⟨Nat.le_trans h.le (Nat.le_trans apart (h'.within p hp).1),
        (h'.within p hp).2⟩⟩
  inOrder := List.pairwise_append.2 ⟨h.inOrder, h'.inOrder, fun p hp q hq =>
    Nat.le_trans (h.within p hp).2 (Nat.le_trans apart (h'.within q hq).1)⟩

theorem startingAt (h : Row mid parts hi) (start : lo ≤ mid) : Row lo parts hi :=
  ⟨Nat.le_trans start h.le, fun p hp => ⟨Nat.le_trans start (h.within p hp).1, (h.within p hp).2⟩,
    h.inOrder⟩

/-- A row starts with its first node. -/
theorem first (h : Row lo (p :: parts) hi) (hp : p.Nested text) :
    Row p.span.start (p :: parts) hi where
  le := Nat.le_trans hp.inside.ordered (h.within p List.mem_cons_self).2
  within q hq := by
    refine ⟨?_, (h.within q hq).2⟩
    rcases List.mem_cons.1 hq with rfl | hq
    · exact Nat.le_refl _
    · exact Nat.le_trans hp.inside.ordered ((List.pairwise_cons.1 h.inOrder).1 q hq)
  inOrder := h.inOrder

/-- A row ends with its last node. -/
theorem last (h : Row lo (parts ++ [p]) hi) (hp : p.Nested text) :
    Row lo (parts ++ [p]) p.span.stop where
  le := Nat.le_trans (h.within p List.mem_concat_self).1 hp.inside.ordered
  within q hq := by
    refine ⟨(h.within q hq).1, ?_⟩
    rcases List.mem_append.1 hq with hq | hq
    · have before := (List.pairwise_append.1 h.inOrder).2.2 q hq p (List.mem_singleton_self p)
      exact Nat.le_trans before hp.inside.ordered
    · cases List.mem_singleton.1 hq
      exact Nat.le_refl _
  inOrder := h.inOrder

end Row

/-! ### Interleaving -/

/-- Two lists of nodes as one, in the order written. -/
def interleave (parts more : List Outline) : List Outline :=
  more.foldr (List.orderedInsert Before) parts

theorem mem_interleave {parts more : List Outline} {p : Outline} :
    p ∈ interleave parts more ↔ p ∈ parts ∨ p ∈ more := by
  induction more with
  | nil => simp [interleave]
  | cons q rest ih =>
    rw [interleave, List.foldr_cons, List.mem_orderedInsert, ← interleave, ih, List.mem_cons]
    exact or_left_comm

section
variable {text : List Char} {p : Outline} {parts more : List Outline}

/-- A node that overlaps no other keeps the order. -/
theorem pairwise_insert (h : parts.Pairwise Before) (nested : ∀ q ∈ parts, q.Nested text)
    (apart : ∀ q ∈ parts, q.Before p ∨ p.Before q) :
    (parts.orderedInsert Before p).Pairwise Before := by
  induction parts with
  | nil => exact List.pairwise_singleton ..
  | cons q rest ih =>
    obtain ⟨hq, hrest⟩ := List.pairwise_cons.1 h
    obtain ⟨qNested, restNested⟩ := List.forall_mem_cons.1 nested
    obtain ⟨qApart, restApart⟩ := List.forall_mem_cons.1 apart
    rw [List.orderedInsert]
    split
    · rename_i before
      exact List.pairwise_cons.2
        ⟨List.forall_mem_cons.2 ⟨before, fun r hr => qNested.before_trans before (hq r hr)⟩, h⟩
    · rename_i later
      refine List.pairwise_cons.2 ⟨fun r hr => ?_, ih hrest restNested restApart⟩
      rcases (List.mem_orderedInsert _).1 hr with rfl | hr
      · exact qApart.resolve_right later
      · exact hq r hr

theorem pairwise_interleave (h : parts.Pairwise Before) (h' : more.Pairwise Before)
    (nested : ∀ p ∈ parts, p.Nested text) (nested' : ∀ p ∈ more, p.Nested text)
    (apart : ∀ p ∈ parts, ∀ q ∈ more, p.Before q ∨ q.Before p) :
    (interleave parts more).Pairwise Before := by
  induction more with
  | nil => exact h
  | cons q rest ih =>
    obtain ⟨hq, hrest⟩ := List.pairwise_cons.1 h'
    obtain ⟨-, restNested⟩ := List.forall_mem_cons.1 nested'
    have row := ih hrest restNested fun p hp r hr => apart p hp r (List.mem_cons_of_mem _ hr)
    have rowNested : ∀ p ∈ interleave parts rest, p.Nested text := fun p hp =>
      (mem_interleave.1 hp).elim (nested p) (restNested p)
    refine pairwise_insert row rowNested fun p hp => ?_
    exact (mem_interleave.1 hp).elim (fun hp => apart p hp q List.mem_cons_self)
      fun hp => .inr (hq p hp)

end
end Outline
end StagedMapping.Source
