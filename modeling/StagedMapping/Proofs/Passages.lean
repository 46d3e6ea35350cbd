import StagedMapping.Proofs.Outline
import StagedMapping.Source.Cursor

/-! Reading tokens in order. The tokens ahead of a cursor stand in the text one after the other
(`Cursor.Ordered`). A `Passage` leads past a token or more: what is ahead of it is still
ordered, and its parts, nested nodes, are written one after the other between where it started
and where the last token that was passed ends. The parts of a passage become those of one node
(`Passage.enclose`). `Locates` says that a reader leaves such a place, or fails with a problem
in the text. -/
namespace StagedMapping.Source
variable {n : Nat} {α : Type} {text : List Char}

/-! ### Tokens ahead -/

namespace Cursor

/-- Where the tokens ahead stand, and the end mark after them. -/
def marks (c : Cursor n) : List Span := c.ahead.map (·.span) ++ [c.endSpan]

/-- What is ahead stands in the text, one after the other. -/
structure Ordered (text : List Char) (c : Cursor n) : Prop where
  inside : ∀ s ∈ c.marks, s.Inside text
  ordered : c.marks.Pairwise fun s t => s.stop ≤ t.start

variable {c d : Cursor n}

theorem marks_eq (c : Cursor n) : c.marks = c.span :: c.marks.tail := by
  unfold marks span
  cases c.ahead <;> rfl

theorem span_mem_marks (c : Cursor n) : c.span ∈ c.marks := by
  rw [marks_eq]
  exact List.mem_cons_self

namespace Ordered

theorem span (hc : c.Ordered text) : c.span.Inside text := hc.inside _ c.span_mem_marks

theorem start_le (hc : c.Ordered text) : ∀ s ∈ c.marks, c.span.start ≤ s.start := by
  have ordered := hc.ordered
  rw [marks_eq, List.pairwise_cons] at ordered
  intro s hs
  rw [marks_eq] at hs
  rcases List.mem_cons.1 hs with rfl | hs
  · exact Nat.le_refl _
  · exact Nat.le_trans hc.span.ordered (ordered.1 s hs)

theorem sublist (hc : c.Ordered text) (h : d.marks.Sublist c.marks) : d.Ordered text :=
  ⟨fun s hs => hc.inside s (h.mem hs), hc.ordered.sublist h⟩

theorem skipWhile (hc : c.Ordered text) (p : TokenKind → Bool) : (c.skipWhile p).Ordered text :=
  hc.sublist (((List.dropWhile_sublist _).map _).append_right _)

theorem advance (hc : c.Ordered text) : c.advance.Ordered text := by
  unfold Cursor.advance
  split
  · exact hc
  · rename_i t rest hahead
    have marks : c.marks = t.span :: (rest.map (·.span) ++ [c.endSpan]) := by
      rw [Cursor.marks, hahead, List.map_cons, List.cons_append]
    refine hc.sublist ?_
    rw [marks]
    exact List.sublist_cons_self _ _

end Ordered
end Cursor

/-! ### Passages -/

/-- From one place to a later one, past a token or more, with nodes that are written in
between. -/
structure Passage (text : List Char) (c d : Cursor n) (parts : List Outline) : Prop where
  start : Text.IsBoundary text c.span.start
  stop : Text.IsBoundary text d.previousEnd
  row : Outline.Row c.span.start parts d.previousEnd
  nested : ∀ p ∈ parts, p.Nested text
  following : d.previousEnd ≤ d.span.start
  ordered : d.Ordered text

namespace Passage
variable {b c d : Cursor n} {parts more : List Outline} {p q : Outline} {s t : Span}

theorem later (h : Passage text c d parts) : c.span.start ≤ d.span.start :=
  Nat.le_trans h.row.le h.following

theorem rearrange (h : Passage text c d parts) (hsub : more ⊆ parts)
    (inOrder : more.Pairwise Outline.Before) : Passage text c d more :=
  { h with
    row := ⟨h.row.le, fun p hp => h.row.within p (hsub hp), inOrder⟩
    nested := fun p hp => h.nested p (hsub hp) }

/-- Some of the parts. -/
theorem sub (h : Passage text c d parts) (hsub : more.Sublist parts) : Passage text c d more :=
  h.rearrange hsub.subset (h.row.inOrder.sublist hsub)

theorem append_nil (h : Passage text c d parts) : Passage text c d (parts ++ []) := by
  rw [List.append_nil]
  exact h

theorem append (h : Passage text b c parts) (h' : Passage text c d more) :
    Passage text b d (parts ++ more) where
  start := h.start
  stop := h'.stop
  row := h.row.append h.following h'.row
  nested := List.forall_mem_append.2 ⟨h.nested, h'.nested⟩
  following := h'.following
  ordered := h'.ordered

/-- Goes on past tokens that are no part. -/
theorem past (h : Passage text b c parts) (h' : Passage text c d []) : Passage text b d parts := by
  have both := h.append h'
  rw [List.append_nil] at both
  exact both

/-! The parts become those of a node: of the whole passage, or from the first part or to the
last one. -/

theorem enclose (h : Passage text c d parts) (inside : s.Inside text)
    (row : Outline.Row s.start parts s.stop) (start : c.span.start ≤ s.start)
    (stop : s.stop ≤ d.previousEnd) : Passage text c d [.node s parts] :=
  { h with
    row := .singleton inside.ordered start stop
    nested := List.forall_mem_singleton.2 (.node inside row h.nested) }

theorem node (h : Passage text c d parts) :
    Passage text c d [.node ⟨c.span.start, d.previousEnd⟩ parts] :=
  h.enclose ⟨h.row.le, h.start, h.stop⟩ h.row (Nat.le_refl _) (Nat.le_refl _)

theorem nodeFrom (h : Passage text c d (p :: parts)) (hs : p.span = s) :
    Passage text c d [.node ⟨s.start, d.previousEnd⟩ (p :: parts)] := by
  subst hs
  have nested := h.nested p List.mem_cons_self
  have row := h.row.first nested
  exact h.enclose ⟨row.le, nested.inside.start, h.stop⟩ row
    (h.row.within p List.mem_cons_self).1 (Nat.le_refl _)

theorem nodeTo (h : Passage text c d (parts ++ [p])) (hs : p.span = s) :
    Passage text c d [.node ⟨c.span.start, s.stop⟩ (parts ++ [p])] := by
  subst hs
  have nested := h.nested p List.mem_concat_self
  have row := h.row.last nested
  exact h.enclose ⟨row.le, h.start, nested.inside.stop⟩ row (Nat.le_refl _)
    (h.row.within p List.mem_concat_self).2

theorem merge (h : Passage text c d (p :: parts ++ [q])) (hs : p.span = s) (ht : q.span = t) :
    Passage text c d [.node (s.merge t) (p :: parts ++ [q])] := by
  subst hs ht
  have pNested := h.nested p List.mem_cons_self
  have qNested := h.nested q List.mem_concat_self
  have fromFirst : Outline.Row p.span.start (p :: parts ++ [q]) d.previousEnd :=
    h.row.first pNested
  have row := fromFirst.last qNested
  have before : p.Before q :=
    (List.pairwise_append.1 h.row.inOrder).2.2 p List.mem_cons_self q (List.mem_singleton_self q)
  have around : p.span.merge q.span = ⟨p.span.start, q.span.stop⟩ := by
    rw [Span.merge, Nat.min_eq_left (Nat.le_trans pNested.inside.ordered before),
      Nat.max_eq_right (Nat.le_trans before qNested.inside.ordered)]
  rw [around]
  exact h.enclose ⟨row.le, pNested.inside.start, qNested.inside.stop⟩ row
    (h.row.within p List.mem_cons_self).1 (h.row.within q List.mem_concat_self).2

end Passage

/-- A passage, or no move at all. -/
def Stretch (text : List Char) (c d : Cursor n) (parts : List Outline) : Prop :=
  (d = c ∧ parts = []) ∨ Passage text c d parts

namespace Stretch
variable {b c d : Cursor n} {parts more : List Outline}

theorem stay (c : Cursor n) : Stretch text c c [] := .inl ⟨rfl, rfl⟩

theorem ordered (h : Stretch text c d parts) (hc : c.Ordered text) : d.Ordered text := by
  rcases h with ⟨rfl, -⟩ | h
  · exact hc
  · exact h.ordered

theorem nested (h : Stretch text c d parts) : ∀ p ∈ parts, p.Nested text := by
  rcases h with ⟨-, rfl⟩ | h
  · exact List.forall_mem_nil _
  · exact h.nested

theorem later (h : Stretch text c d parts) : c.span.start ≤ d.span.start := by
  rcases h with ⟨rfl, -⟩ | h
  · exact Nat.le_refl _
  · exact h.later

theorem andThen (h : Stretch text b c parts) (h' : Passage text c d more) :
    Passage text b d (parts ++ more) := by
  rcases h with ⟨rfl, rfl⟩ | h
  · exact h'
  · exact h.append h'

theorem andMaybe (h : Stretch text b c parts) (h' : Stretch text c d more) :
    Stretch text b d (parts ++ more) := by
  rcases h' with ⟨rfl, rfl⟩ | h'
  · rw [List.append_nil]
    exact h
  · exact .inr (h.andThen h')

end Stretch

namespace Passage
variable {b c d : Cursor n} {parts more : List Outline}

theorem stretch (h : Passage text c d parts) : Stretch text c d parts := .inr h

theorem andMaybe (h : Passage text b c parts) (h' : Stretch text c d more) :
    Passage text b d (parts ++ more) := by
  rcases h' with ⟨rfl, rfl⟩ | h'
  · exact h.append_nil
  · exact h.append h'

/-- Goes on, possibly, past tokens that are no part. -/
theorem pastMaybe (h : Passage text b c parts) (h' : Stretch text c d []) :
    Passage text b d parts := by
  have both := h.andMaybe h'
  rw [List.append_nil] at both
  exact both

end Passage

namespace Cursor.Ordered
variable {c d : Cursor n}

/-- Passing tokens, the last of which is known. -/
theorem passage (hc : c.Ordered text) {f : List Token} {t : Token}
    (ahead : c.ahead = f ++ t :: d.ahead) (stop : d.previousEnd = t.span.stop)
    (ends : d.endSpan = c.endSpan) :
    Passage text c d (f.map (fun u => .node u.span []) ++ [.node t.span []]) := by
  have marks : c.marks = (f ++ [t]).map (·.span) ++ d.marks := by
    simp [Cursor.marks, ahead, ends]
  have ordered := hc.ordered
  rw [marks, List.pairwise_append, List.pairwise_map] at ordered
  obtain ⟨passed, -, before⟩ := ordered
  have mem : ∀ u ∈ f ++ [t], u.span ∈ c.marks := fun u hu => by
    rw [marks]
    exact List.mem_append_left _ (List.mem_map_of_mem hu)
  have nested : ∀ p ∈ (f ++ [t]).map fun u => Outline.node u.span [], p.Nested text :=
    List.forall_mem_map.2 fun u hu => .leaf (hc.inside _ (mem u hu))
  have row : Outline.Row c.span.start ((f ++ [t]).map fun u => .node u.span []) d.span.start := by
    refine ⟨hc.start_le _ ?_, List.forall_mem_map.2 fun u hu => ⟨hc.start_le _ (mem u hu), ?_⟩,
      List.pairwise_map.2 passed⟩
    · rw [marks]
      exact List.mem_append_right _ d.span_mem_marks
    · exact before _ (List.mem_map_of_mem hu) _ d.span_mem_marks
  rw [List.map_append] at row nested
  refine ⟨hc.span.start, ?_, ?_, nested, ?_, hc.sublist ?_⟩
  · rw [stop]
    exact (hc.inside _ (mem t List.mem_concat_self)).stop
  · rw [stop]
    exact row.last (nested _ List.mem_concat_self)
  · rw [stop]
    exact before _ (List.mem_map_of_mem List.mem_concat_self) _ d.span_mem_marks
  · rw [marks]
    exact List.sublist_append_right _ _

/-- Passing the token at the cursor. -/
theorem token (hc : c.Ordered text) {f : TokenKind → Option α} {s : Step α c}
    (h : c.take? f = some s) : Passage text c s.next [.node c.span []] := by
  unfold Cursor.take? at h
  split at h
  · cases h
  · rename_i t rest hahead
    obtain ⟨a, -, rfl⟩ := Option.map_eq_some_iff.1 h
    have hspan : c.span = t.span := by rw [Cursor.span, hahead]
    rw [hspan]
    exact hc.passage (f := []) hahead rfl rfl

theorem take? (hc : c.Ordered text) {f : TokenKind → Option α} {s : Step α c}
    (h : c.take? f = some s) : Passage text c s.next [] :=
  (hc.token h).sub (List.nil_sublist _)

theorem eat? (hc : c.Ordered text) {p : TokenKind → Bool} {s : Step Unit c}
    (h : c.eat? p = some s) : Passage text c s.next [] := hc.take? h

/-- A name before an equals sign stands where the passage starts. -/
theorem assigned? (hc : c.Ordered text) {s : Step Ident c} (h : c.assigned? = some s) :
    Passage text c s.next [.node s.value.span []] := by
  unfold Cursor.assigned? at h
  split at h <;> cases h
  rename_i name span eqSpan rest hahead
  refine Passage.sub ?_ (List.sublist_append_left [Outline.node span []] [.node eqSpan []])
  exact hc.passage (f := [⟨.ident name, span⟩]) (t := ⟨.operator .eq, eqSpan⟩) hahead rfl rfl

theorem passWhile (hc : c.Ordered text) (p : TokenKind → Bool) :
    Stretch text c (c.skipWhile p) [] := by
  have split := List.takeWhile_append_dropWhile (p := fun t : Token => p t.kind) (l := c.ahead)
  cases last : (c.ahead.takeWhile fun t => p t.kind).getLast? with
  | none =>
    rw [List.getLast?_eq_none_iff.1 last, List.nil_append] at split
    have same : c.skipWhile p = c := by
      obtain ⟨ahead, previousEnd, endSpan, namespaced, bounded⟩ := c
      simp only [Cursor.skipWhile, Cursor.mk.injEq, last, and_true]
      exact ⟨split, rfl⟩
    rw [same]
    exact .stay c
  | some t =>
    obtain ⟨front, passed⟩ := List.getLast?_eq_some_iff.1 last
    rw [passed, List.append_assoc] at split
    have stop : (c.skipWhile p).previousEnd = t.span.stop := by
      simp only [Cursor.skipWhile, last, Option.map_some, Option.getD_some]
    exact ((hc.passage split.symm stop rfl).sub (List.nil_sublist _)).stretch

theorem toLine (hc : c.Ordered text) : Stretch text c c.toLine.next [] := hc.passWhile _

theorem optional (hc : c.Ordered text) (p : TokenKind → Bool) :
    Stretch text c (c.optional p).next [] := by
  unfold Cursor.optional
  split
  · exact (hc.eat? ‹_›).stretch
  · exact .stay c

end Cursor.Ordered

/-! ### What readers leave -/

/-- Reading gives a result that satisfies `post`, or it fails with a problem in the text. -/
def Locates {σ : Type} (text : List Char) (r : Except (Failure n) σ) (post : σ → Prop) : Prop :=
  match r with
  | .ok s => post s
  | .error f => f.problem.span.Inside text ∧ f.place.Ordered text

namespace Locates
variable {σ τ : Type} {r : Except (Failure n) σ} {post : σ → Prop}

theorem pure {s : σ} (h : post s) : Locates text (pure s : Except (Failure n) σ) post := h

theorem error {f : Failure n} (problem : f.problem.span.Inside text)
    (place : f.place.Ordered text) : Locates text (.error f : Except (Failure n) σ) post :=
  ⟨problem, place⟩

theorem mono {goal : σ → Prop} (h : Locates text r post) (hg : ∀ s, post s → goal s) :
    Locates text r goal := by
  cases r with
  | error e => exact h
  | ok s => exact hg s h

theorem bind {f : σ → Except (Failure n) τ} {goal : τ → Prop} (h : Locates text r post)
    (hf : ∀ s, post s → Locates text (f s) goal) : Locates text (r >>= f) goal := by
  cases r with
  | error e => exact h
  | ok s => exact hf s h

end Locates

namespace Cursor.Ordered
variable {c : Cursor n}

theorem unexpected (hc : c.Ordered text) (wanted : String) {σ : Type} {post : σ → Prop} :
    Locates text (.error (c.unexpected wanted) : Except (Failure n) σ) post := ⟨hc.span, hc⟩

theorem expect (hc : c.Ordered text) (p : TokenKind → Bool) (wanted : String) :
    Locates text (c.expect p wanted) fun s => Passage text c s.next [] := by
  unfold Cursor.expect
  split
  · exact .pure (hc.eat? ‹_›)
  · exact hc.unexpected wanted

theorem identifier (hc : c.Ordered text) :
    Locates text c.identifier fun s => Passage text c s.next [.node c.span []] := by
  unfold Cursor.identifier
  split
  · exact .pure (hc.token ‹_›)
  · exact hc.unexpected _

/-- A name that is no part of what is read. -/
theorem word (hc : c.Ordered text) :
    Locates text c.identifier fun s => Passage text c s.next [] :=
  hc.identifier.mono fun _ h => h.sub (List.nil_sublist _)

end Cursor.Ordered

/-- Items with marks between them. -/
theorem separated_located {p : TokenKind → Bool} {item : (c : Cursor n) → Read α c}
    {parts : α → List Outline}
    (hitem : ∀ c : Cursor n, c.Ordered text →
      Locates text (item c) fun s => Passage text c s.next (parts s.value))
    (c : Cursor n) (hc : c.Ordered text) :
    Locates text (c.separated p item) fun s => Passage text c s.next (s.value.flatMap parts) := by
  rw [Cursor.separated]
  refine (hitem c hc).bind fun first hfirst => ?_
  split
  · exact .pure hfirst.append_nil
  · rename_i sep eaten
    have hsep := hfirst.past (hfirst.ordered.eat? eaten)
    have := first.lt
    have := sep.lt
    exact (separated_located hitem sep.next hsep.ordered).bind fun more hmore =>
      .pure (hsep.append hmore)
termination_by c.size

end StagedMapping.Source
