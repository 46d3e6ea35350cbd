import StagedMapping.Proofs.TreeText

/-! Texts of trees tell them apart. A tree is an operand with the members and calls that are
chained after it (`Spine`), and its text shows where each part ends (`Tree.Cancels`), so of the
trees that are `Legible` no two have one text (`Legible.text_inj`). -/
namespace StagedMapping.Tree
open Lexer (IsName Stops)

/-! ### What a tree cancels -/

/-- The tree is told from its text, which shows where it ends. -/
def Cancels (t : Tree) : Prop :=
  ∀ ⦃u cs ds⦄, u.Legible → Ends cs → Ends ds → t.chars ++ cs = u.chars ++ ds → t = u ∧ cs = ds

/-- A tree that is no member or call is told from what comes after its first atom, whether or
not members and calls follow. -/
def HeadCancels (t : Tree) : Prop :=
  ∀ ⦃v cs ds⦄, v.Legible → v.isLinked = false → (t.isPrefixed = true → Ends cs) →
    (v.isPrefixed = true → Ends ds) → t.opening = v.opening → t.inner ++ cs = v.inner ++ ds →
    t = v ∧ cs = ds

section
variable {α : Type} {part : α → List Char} {close : Char} {cs ds : List Char}

theorem ends_followed (hclose : close ∈ [' ', ',', ')']) (items : List α) :
    Ends (followed part items ++ close :: cs) := by
  cases items with
  | nil => exact ends_cons hclose _
  | cons a rest => exact ends_cons (by simp) _

variable {good : α → Prop} {xs ys : List α}

/-- The items are told from their texts, each after a comma. -/
theorem followed_cancel (hclose : close ∈ [' ', ')'])
    (hx : ∀ x ∈ xs, ∀ ⦃y cs ds⦄, good y → Ends cs → Ends ds →
      part x ++ cs = part y ++ ds → x = y ∧ cs = ds)
    (hy : ∀ y ∈ ys, good y)
    (h : followed part xs ++ close :: cs = followed part ys ++ close :: ds) :
    xs = ys ∧ cs = ds := by
  have hends : close ∈ [' ', ',', ')'] := by
    simp only [List.mem_cons, List.not_mem_nil, or_false] at hclose ⊢
    tauto
  have hcomma : close ≠ ',' := by
    rintro rfl
    simp at hclose
  induction xs generalizing ys with
  | nil =>
    cases ys with
    | nil => exact ⟨rfl, (List.cons.inj h).2⟩
    | cons y ys => exact absurd (List.cons.inj h).1 hcomma
  | cons x xs ih =>
    cases ys with
    | nil => exact absurd (List.cons.inj h).1.symm hcomma
    | cons y ys =>
      rw [followed_cons, followed_cons, List.cons_append, List.cons_append, List.cons_append,
        List.cons_append, List.append_assoc, List.append_assoc] at h
      obtain ⟨rfl, tail⟩ := hx x List.mem_cons_self (hy y List.mem_cons_self)
        (ends_followed hends _) (ends_followed hends _) (List.cons.inj (List.cons.inj h).2).2
      obtain ⟨rfl, rest⟩ := ih (fun z hz => hx z (List.mem_cons_of_mem _ hz))
        (fun z hz => hy z (List.mem_cons_of_mem _ hz)) tail
      exact ⟨rfl, rest⟩

theorem listed_cancel (hclose : close ∈ [' ', ')'])
    (hx : ∀ x ∈ xs, ∀ ⦃y cs ds⦄, good y → Ends cs → Ends ds →
      part x ++ cs = part y ++ ds → x = y ∧ cs = ds)
    (hy : ∀ y ∈ ys, good y) (hxs : xs ≠ []) (hys : ys ≠ [])
    (h : listed part xs ++ close :: cs = listed part ys ++ close :: ds) : xs = ys ∧ cs = ds := by
  refine followed_cancel hclose hx hy ?_
  rw [followed_of_ne_nil hxs, followed_of_ne_nil hys, List.cons_append, List.cons_append,
    List.cons_append, List.cons_append, h]

end

/-! ### Operands -/

theorem const_cancels {l : Source.Literal} (h : l.Unsigned)
    (finite : (Lowering.ofLiteral l).isInfinite = false) :
    HeadCancels (const (Lowering.ofLiteral l)) := by
  intro v cs ds hv hl _ _ ho hi
  cases hv with
  | const h' finite' =>
    rw [Lowering.atom_inj h h' finite finite' ho]
    exact ⟨rfl, hi⟩
  | param hname => exact absurd ho (Lowering.atom_ne_name hname)
  | member | call => cases hl
  | cond | binary | unary => exact absurd ho Lowering.atom_ne_mark
  | init => exact absurd ho Lowering.atom_ne_new

theorem param_cancels {name : String} (h : IsName name) : HeadCancels (param name) := by
  intro v cs ds hv hl _ _ ho hi
  cases hv with
  | const => exact absurd ho.symm (Lowering.atom_ne_name h)
  | param =>
    cases ho
    exact ⟨rfl, hi⟩
  | member | call => cases hl
  | cond | binary | unary => cases ho
  | init => exact absurd (Atom.word.inj ho) (h.ne_spelling .newWord)

/-- What stands between the blanks in parentheses tells a condition from an operation, and
operations apart. -/
theorem symbol_cancel {xs ys cs ds : List Char} (hx : ∀ c ∈ xs, (c != ' ') = true)
    (hy : ∀ c ∈ ys, (c != ' ') = true) (h : ' ' :: (xs ++ ' ' :: cs) = ' ' :: (ys ++ ' ' :: ds)) :
    xs = ys ∧ cs = ds := by
  obtain ⟨same, rest⟩ := span_cancel hx hy (by simp) (by simp) (List.cons.inj h).2
  exact ⟨same, (List.cons.inj rest).2⟩

theorem question_ne_blank : ∀ c ∈ ['?'], (c != ' ') = true := by simp

theorem cond_cancels {test yes no : Tree} (htest : test.Cancels) (hyes : yes.Cancels)
    (hno : no.Cancels) : HeadCancels (cond test yes no) := by
  intro v cs ds hv hl _ _ ho hi
  cases hv with
  | const => exact absurd ho.symm Lowering.atom_ne_mark
  | param | init => cases ho
  | member | call => cases hl
  | @unary op => cases op <;> cases ho
  | binary hlhs =>
    simp only [inner, List.append_assoc, List.cons_append] at hi
    obtain ⟨-, middle⟩ := htest hlhs (ends_cons (by simp) _) (ends_cons (by simp) _) hi
    have same := (symbol_cancel question_ne_blank (BinaryOp.symbol_spec _).1 middle).1
    exact absurd same.symm (BinaryOp.symbol_spec _).2
  | cond htest' hyes' hno' =>
    simp only [inner, List.append_assoc, List.cons_append, List.nil_append] at hi
    obtain ⟨rfl, middle⟩ := htest htest' (ends_cons (by simp) _) (ends_cons (by simp) _) hi
    simp only [List.cons.injEq, true_and] at middle
    obtain ⟨rfl, last⟩ := hyes hyes' (ends_cons (by simp) _) (ends_cons (by simp) _) middle
    simp only [List.cons.injEq, true_and] at last
    obtain ⟨rfl, rest⟩ := hno hno' (ends_cons (by simp) _) (ends_cons (by simp) _) last
    exact ⟨rfl, (List.cons.inj rest).2⟩

theorem binary_cancels {op : BinaryOp} {lhs rhs : Tree} (hlhs : lhs.Cancels)
    (hrhs : rhs.Cancels) : HeadCancels (binary op lhs rhs) := by
  intro v cs ds hv hl _ _ ho hi
  cases hv with
  | const => exact absurd ho.symm Lowering.atom_ne_mark
  | param | init => cases ho
  | member | call => cases hl
  | @unary op => cases op <;> cases ho
  | cond htest =>
    simp only [inner, List.append_assoc, List.cons_append] at hi
    obtain ⟨-, middle⟩ := hlhs htest (ends_cons (by simp) _) (ends_cons (by simp) _) hi
    have same := (symbol_cancel (BinaryOp.symbol_spec _).1 question_ne_blank middle).1
    exact absurd same (BinaryOp.symbol_spec _).2
  | binary hlhs' hrhs' =>
    simp only [inner, List.append_assoc, List.cons_append, List.nil_append] at hi
    obtain ⟨rfl, middle⟩ := hlhs hlhs' (ends_cons (by simp) _) (ends_cons (by simp) _) hi
    obtain ⟨symbol, last⟩ :=
      symbol_cancel (BinaryOp.symbol_spec _).1 (BinaryOp.symbol_spec _).1 middle
    cases BinaryOp.symbol_inj (String.toList_inj.1 symbol)
    obtain ⟨rfl, rest⟩ := hrhs hrhs' (ends_cons (by simp) _) (ends_cons (by simp) _) last
    exact ⟨rfl, (List.cons.inj rest).2⟩

theorem unary_cancels {op : UnaryOp} {operand : Tree} (h : operand.Cancels) :
    HeadCancels (unary op operand) := by
  intro v cs ds hv hl hc hd ho hi
  cases hv with
  | const => exact absurd ho.symm Lowering.atom_ne_mark
  | param | init => cases ho
  | member | call => cases hl
  | cond | binary => cases op <;> cases ho
  | unary hoperand =>
    cases UnaryOp.mark_inj (Atom.mark.inj ho)
    obtain ⟨rfl, rest⟩ := h hoperand (hc rfl) (hd rfl) hi
    exact ⟨rfl, rest⟩

theorem entry_cancels {b b' : String × Tree} (hname : IsName b.1) (hvalue : b.2.Cancels)
    (hb' : IsName b'.1 ∧ b'.2.Legible) {cs ds : List Char} (hc : Ends cs) (hd : Ends ds)
    (h : entryChars b ++ cs = entryChars b' ++ ds) : b = b' ∧ cs = ds := by
  simp only [entryChars, List.append_assoc, List.cons_append] at h
  obtain ⟨name, equals⟩ := Atom.word_cancel hname.toIsWord hb'.1.toIsWord
    (Lexer.stops_cons (by simp) _) (Lexer.stops_cons (by simp) _) h
  simp only [List.cons.injEq, true_and] at equals
  obtain ⟨value, rest⟩ := hvalue hb'.2 hc hd equals
  exact ⟨Prod.ext name value, rest⟩

theorem init_cancels {typeName : String} {bindings : List (String × Tree)}
    (htype : Name.IsPath typeName) (hnames : ∀ b ∈ bindings, IsName b.1)
    (hvalues : ∀ b ∈ bindings, b.2.Cancels) : HeadCancels (init typeName bindings) := by
  intro v cs ds hv hl _ _ ho hi
  cases hv with
  | const => exact absurd ho.symm Lowering.atom_ne_new
  | param hname => exact absurd (Atom.word.inj ho).symm (hname.ne_spelling .newWord)
  | member | call => cases hl
  | cond | binary | unary => cases ho
  | @init typeName' bindings' htype' hnames' hvalues' =>
    simp only [inner, List.append_assoc, List.cons_append, List.cons.injEq, true_and] at hi
    have blank : Name.isPathChar ' ' = false := by decide
    obtain ⟨same, braced⟩ := span_cancel (p := Name.isPathChar) htype htype' (by simpa using blank)
      (by simpa using blank) hi
    cases String.toList_inj.1 same
    simp only [List.cons.injEq, true_and] at braced
    -- a brace is closed at once if there are no fields
    cases bindings with
    | nil =>
      cases bindings' with
      | nil => exact ⟨rfl, (List.cons.inj braced).2⟩
      | cons b rest => cases (List.cons.inj braced).1
    | cons b rest =>
      cases bindings' with
      | nil => cases (List.cons.inj braced).1
      | cons b' rest' =>
        simp only [List.isEmpty_cons, Bool.false_eq_true, if_false, List.cons_append,
          List.append_assoc, List.nil_append, List.cons.injEq, true_and] at braced
        have legible : ∀ y ∈ b' :: rest', IsName y.1 ∧ y.2.Legible := fun y hy =>
          ⟨hnames' y hy, hvalues' y hy⟩
        obtain ⟨same, rest⟩ := listed_cancel (by simp)
          (fun x hx y cs ds hy hc hd h => entry_cancels (hnames x hx) (hvalues x hx) hy hc hd h)
          legible (List.cons_ne_nil _ _) (List.cons_ne_nil _ _) braced
        exact ⟨by rw [same], (List.cons.inj rest).2⟩

/-! ### Members and calls -/

/-- A member or a call, without what it is applied to. -/
inductive Link where
  | member (name : String)
  | call (method : Builtin) (args : List Tree)

namespace Link

def apply (t : Tree) : Link → Tree
  | member name => .member t name
  | call method args => .call t method args

/-- The word after the point. -/
def word : Link → String
  | member name => name
  | call method _ => method.spelling

/-- What comes after that word. -/
def inner : Link → List Char
  | member _ => []
  | call _ args => '(' :: (listed chars args ++ [')'])

def chars (l : Link) : List Char := '.' :: (l.word.toList ++ l.inner)

def Legible : Link → Prop
  | member name => IsName name
  | call _ args => ∀ a ∈ args, a.Legible

def Cancels : Link → Prop
  | member _ => True
  | call _ args => ∀ a ∈ args, a.Cancels

theorem Legible.isWord {l : Link} (h : l.Legible) : Lexer.IsWord l.word := by
  cases l with
  | member name => exact IsName.toIsWord h
  | call method args => exact method.isWord_spelling

theorem chars_apply (t : Tree) (l : Link) : (l.apply t).chars = t.chars ++ l.chars := by
  cases l with
  | member name => simp [Tree.chars, apply, text, chars, word, inner]
  | call method args =>
    rw [chars, inner, ← toList_argTexts]
    simp [Tree.chars, apply, text, word]

end Link

theorem chars_member (base : Tree) (name : String) :
    (member base name).chars = base.chars ++ (Link.member name).chars :=
  Link.chars_apply base (.member name)

theorem chars_call (receiver : Tree) (method : Builtin) (args : List Tree) :
    (call receiver method args).chars = receiver.chars ++ (Link.call method args).chars :=
  Link.chars_apply receiver (.call method args)

/-- The members and calls, applied in turn. -/
def extend (t : Tree) (ls : List Link) : Tree := ls.foldl Link.apply t

def linkChars (ls : List Link) : List Char := ls.flatMap Link.chars

theorem chars_extend (t : Tree) (ls : List Link) :
    (t.extend ls).chars = t.chars ++ linkChars ls := by
  induction ls generalizing t with
  | nil => exact (List.append_nil _).symm
  | cons l ls ih =>
    show ((l.apply t).extend ls).chars = _
    rw [ih, Link.chars_apply, List.append_assoc]
    rfl

theorem continues_links {ls : List Link} (h : ∀ l ∈ ls, l.Legible) {cs : List Char} (hc : Ends cs) :
    Continues (linkChars ls ++ cs) := by
  cases ls with
  | nil => exact .inl hc
  | cons l ls =>
    obtain ⟨c, rest, word, start⟩ := (h l List.mem_cons_self).isWord.start
    refine .inr ⟨c, rest ++ (l.inner ++ (linkChars ls ++ cs)), ?_, start⟩
    simp [linkChars, Link.chars, word]

/-- After the word of a member or a call nothing goes on with the word. -/
theorem stops_links {l : Link} {ls : List Link} (h : ∀ l ∈ ls, l.Legible) {cs : List Char}
    (hc : Ends cs) : Stops (l.inner ++ (linkChars ls ++ cs)) := by
  cases l with
  | member => exact (continues_links h hc).stops
  | call => exact Lexer.stops_cons (by simp) _

/-- The arguments of a call are told from their texts, up to the parenthesis. -/
theorem args_cancel {as bs : List Tree} (hc : ∀ a ∈ as, a.Cancels) (ha : ∀ a ∈ as, a.Legible)
    (hb : ∀ b ∈ bs, b.Legible) {cs ds : List Char}
    (h : listed chars as ++ ')' :: cs = listed chars bs ++ ')' :: ds) : as = bs ∧ cs = ds := by
  cases as with
  | nil =>
    cases bs with
    | nil => exact ⟨rfl, (List.cons.inj h).2⟩
    | cons b bs =>
      rw [listed.eq_2, List.append_assoc] at h
      exact absurd h.symm (hb b List.mem_cons_self).ne_close
  | cons a as =>
    cases bs with
    | nil =>
      rw [listed.eq_2, List.append_assoc] at h
      exact absurd h (ha a List.mem_cons_self).ne_close
    | cons b bs =>
      exact listed_cancel (by simp) hc hb (List.cons_ne_nil _ _) (List.cons_ne_nil _ _) h

theorem links_ne_open {ls : List Link} (h : ∀ l ∈ ls, l.Legible) {cs ds : List Char}
    (hc : Ends cs) : linkChars ls ++ cs ≠ '(' :: ds := by
  intro eq
  rcases continues_links h hc with ends | ⟨c, rest, point, -⟩
  · have := ends '(' (by rw [eq]; rfl)
    simp at this
  · rw [eq] at point
    cases (List.cons.inj point).1

theorem links_cancel {ls ms : List Link} (hl : ∀ l ∈ ls, l.Legible) (hc : ∀ l ∈ ls, l.Cancels)
    (hm : ∀ m ∈ ms, m.Legible) {cs ds : List Char} (ends : Ends cs) (ends' : Ends ds)
    (h : linkChars ls ++ cs = linkChars ms ++ ds) : ls = ms ∧ cs = ds := by
  induction ls generalizing ms with
  | nil =>
    cases ms with
    | nil => exact ⟨rfl, h⟩
    | cons m ms => exact absurd h ends.ne_point
  | cons l ls ih =>
    cases ms with
    | nil => exact absurd h.symm ends'.ne_point
    | cons m ms =>
      obtain ⟨legible, hls⟩ := List.forall_mem_cons.1 hl
      obtain ⟨legible', hms⟩ := List.forall_mem_cons.1 hm
      obtain ⟨cancels, hcs⟩ := List.forall_mem_cons.1 hc
      simp only [linkChars, List.flatMap_cons, Link.chars, List.cons_append, List.append_assoc,
        List.cons.injEq, true_and] at h
      obtain ⟨word, rest⟩ := Atom.word_cancel legible.isWord legible'.isWord (stops_links hls ends)
        (stops_links hms ends') h
      cases l with
      | member name =>
        cases m with
        | member name' =>
          cases word
          obtain ⟨rfl, done⟩ := ih hls hcs hms rest
          exact ⟨rfl, done⟩
        | call method args => exact absurd rest (links_ne_open hls ends)
      | call method args =>
        cases m with
        | member name => exact absurd rest.symm (links_ne_open hms ends')
        | call method' args' =>
          cases Builtin.spelling_inj word
          simp only [Link.inner, List.cons_append, List.append_assoc, List.nil_append,
            List.cons.injEq, true_and] at rest
          obtain ⟨rfl, more⟩ := args_cancel cancels legible legible' rest
          obtain ⟨rfl, done⟩ := ih hls hcs hms more
          exact ⟨rfl, done⟩

/-- A tree is an operand with members and calls after it, of which an operation before an operand
has none. -/
def Spine (u v : Tree) (ms : List Link) : Prop :=
  u = v.extend ms ∧ v.Legible ∧ v.isLinked = false ∧ (∀ m ∈ ms, m.Legible) ∧
    (v.isPrefixed = true → ms = [])

theorem Spine.apply {u v : Tree} {ms : List Link} (h : Spine u v ms) (hp : u.isPrefixed = false)
    {l : Link} (hl : l.Legible) : Spine (l.apply u) v (ms ++ [l]) := by
  obtain ⟨rfl, hv, head, hm, alone⟩ := h
  refine ⟨by simp [extend], hv, head, List.forall_mem_append.2 ⟨hm, List.forall_mem_singleton.2 hl⟩,
    fun prefixed => ?_⟩
  rw [alone prefixed] at hp
  exact absurd prefixed (Bool.eq_false_iff.1 hp)

theorem Legible.spine {u : Tree} (h : u.Legible) : ∃ v ms, Spine u v ms := by
  have head {u : Tree} (h : u.Legible) (hl : u.isLinked = false) : ∃ v ms, Spine u v ms :=
    ⟨u, [], rfl, h, hl, List.forall_mem_nil _, fun _ => rfl⟩
  induction h with
  | const h finite => exact head (.const h finite) rfl
  | param h => exact head (.param h) rfl
  | @member base name _ hp hname ih =>
    obtain ⟨v, ms, spine⟩ := ih
    exact ⟨v, _, spine.apply hp (l := .member name) hname⟩
  | @call receiver method args _ hp hargs ih =>
    obtain ⟨v, ms, spine⟩ := ih
    exact ⟨v, _, spine.apply hp (l := .call method args) hargs⟩
  | cond ht hy hn => exact head (.cond ht hy hn) rfl
  | binary hl hr => exact head (.binary hl hr) rfl
  | unary h => exact head (.unary h) rfl
  | init ht hn hv => exact head (.init ht hn hv) rfl

/-- The tree with members and calls after it is told from its text. -/
def Chained (t : Tree) : Prop :=
  ∀ ⦃ls u cs ds⦄, (∀ l ∈ ls, l.Legible) → (∀ l ∈ ls, l.Cancels) → (t.isPrefixed = true → ls = []) →
    u.Legible → Ends cs → Ends ds → t.chars ++ (linkChars ls ++ cs) = u.chars ++ ds →
    t.extend ls = u ∧ cs = ds

theorem Chained.cancels {t : Tree} (h : t.Chained) : t.Cancels := fun _ _ _ hu hc hd eq =>
  h (List.forall_mem_nil _) (List.forall_mem_nil _) (fun _ => rfl) hu hc hd eq

theorem HeadCancels.chained {t : Tree} (h : t.HeadCancels) (ht : t.Legible)
    (head : t.isLinked = false) : t.Chained := by
  intro ls u cs ds hl hcancel alone hu hc hd eq
  obtain ⟨v, ms, rfl, hv, head', hm, alone'⟩ := hu.spine
  rw [chars_extend, ht.chars_eq, hv.chars_eq] at eq
  simp only [List.append_assoc] at eq
  obtain ⟨opening, inside⟩ := Atom.cancel ht.opening_proper hv.opening_proper
    (ht.before head (continues_links hl hc)) (hv.before head' (continues_links hm hd)) eq
  have hends : t.isPrefixed = true → Ends (linkChars ls ++ cs) := fun prefixed => by
    rw [alone prefixed]
    exact hc
  have hends' : v.isPrefixed = true → Ends (linkChars ms ++ ds) := fun prefixed => by
    rw [alone' prefixed]
    exact hd
  obtain ⟨rfl, links⟩ := h hv head' hends hends' opening inside
  obtain ⟨rfl, rest⟩ := links_cancel hl hcancel hm hc hd links
  exact ⟨rfl, rest⟩

-- A member or a call is taken over to the links, down to the operand that they are applied to.
theorem Legible.chained {t : Tree} (h : t.Legible) : t.Chained := by
  induction h with
  | const h finite => exact (const_cancels h finite).chained (.const h finite) rfl
  | param h => exact (param_cancels h).chained (.param h) rfl
  | @member base name _ hp hname ih =>
    intro ls u cs ds hl hcancel _ hu hc hd eq
    have legible : ∀ l ∈ Link.member name :: ls, l.Legible := List.forall_mem_cons.2 ⟨hname, hl⟩
    refine ih legible (List.forall_mem_cons.2 ⟨trivial, hcancel⟩) (fun prefixed => ?_) hu hc hd ?_
    · exact absurd prefixed (Bool.eq_false_iff.1 hp)
    · rw [← eq, chars_member]
      simp [linkChars]
  | @call receiver method args _ hp hargs ih ihargs =>
    intro ls u cs ds hl hcancel _ hu hc hd eq
    have legible : ∀ l ∈ Link.call method args :: ls, l.Legible :=
      List.forall_mem_cons.2 ⟨hargs, hl⟩
    have cancels : ∀ l ∈ Link.call method args :: ls, l.Cancels :=
      List.forall_mem_cons.2 ⟨fun a ha => (ihargs a ha).cancels, hcancel⟩
    refine ih legible cancels (fun prefixed => ?_) hu hc hd ?_
    · exact absurd prefixed (Bool.eq_false_iff.1 hp)
    · rw [← eq, chars_call]
      simp [linkChars]
  | cond ht hy hn iht ihy ihn =>
    exact (cond_cancels iht.cancels ihy.cancels ihn.cancels).chained (.cond ht hy hn) rfl
  | binary hl hr ihl ihr =>
    exact (binary_cancels ihl.cancels ihr.cancels).chained (.binary hl hr) rfl
  | unary h ih => exact (unary_cancels ih.cancels).chained (.unary h) rfl
  | init ht hn hv ih =>
    exact (init_cancels ht hn fun b hb => (ih b hb).cancels).chained (.init ht hn hv) rfl

/-- Of the legible trees no two have one text. -/
theorem Legible.text_inj {t u : Tree} (ht : t.Legible) (hu : u.Legible) (h : t.text = u.text) :
    t = u := by
  have ends : Ends [] := by simp [Ends]
  have same : t.chars ++ [] = u.chars ++ [] := by rw [chars, chars, h]
  exact (ht.chained.cancels hu ends ends same).1

end StagedMapping.Tree
