import StagedMapping.Source.Module.Parser

/-! How readers move. A reader passes tokens one by one and, at most, notes that a namespace is
declared: `b.Leads c` says that `b` becomes `c` in this way. Wherever a reader ends or gives up,
the place where it started leads there (`Onward`); for a whole declaration this is
`readDeclaration_onward`. So what holds of a place and is kept by passing one token holds of
every place that a reader comes to. -/
namespace StagedMapping.Source
variable {n : Nat} {α : Type}

namespace Cursor

/-- The places that come of a place as tokens are passed. -/
inductive Leads (b : Cursor n) : Cursor n → Prop where
  | here : Leads b b
  | advance {c : Cursor n} (h : Leads b c) : Leads b c.advance
  | inNamespace {c : Cursor n} (h : Leads b c) : Leads b c.inNamespace.next

/-! ### Passing tokens -/

theorem take?_next {c : Cursor n} {f : TokenKind → Option α} {s : Step α c}
    (h : c.take? f = some s) : s.next = c.advance := by
  unfold take? at h
  unfold advance
  split at h
  · cases h
  · rename_i t rest hahead
    obtain ⟨a, -, rfl⟩ := Option.map_eq_some_iff.1 h
    rfl

theorem advance_eq {c : Cursor n} {t : Token} {rest : List Token} (h : c.ahead = t :: rest) :
    c.advance.ahead = rest ∧ c.advance.previousEnd = t.span.stop ∧ c.advance.endSpan = c.endSpan ∧
      c.advance.namespaced = c.namespaced := by
  unfold advance
  split
  · rename_i hnil
    cases hnil.symm.trans h
  · rename_i u more hcons
    cases hcons.symm.trans h
    exact ⟨rfl, rfl, rfl, rfl⟩

theorem advance_of_nil {c : Cursor n} (h : c.ahead = []) : c.advance = c := by
  unfold advance
  split
  · rfl
  · rename_i u more hcons
    cases hcons.symm.trans h

theorem ext_fields {c d : Cursor n} (ahead : c.ahead = d.ahead)
    (previousEnd : c.previousEnd = d.previousEnd) (endSpan : c.endSpan = d.endSpan)
    (namespaced : c.namespaced = d.namespaced) : c = d := by
  cases c
  cases d
  simp_all

/-- Passing on as long as tokens satisfy `p` is passing the first one and going on from there. -/
theorem skipWhile_eq (p : TokenKind → Bool) (c : Cursor n) :
    c.skipWhile p = c ∨ c.skipWhile p = c.advance.skipWhile p ∧ c.advance.size < c.size := by
  cases hahead : c.ahead with
  | nil =>
    exact .inl (ext_fields (by simp [skipWhile, hahead]) (by simp [skipWhile, hahead]) rfl rfl)
  | cons t rest =>
    obtain ⟨ahead, previousEnd, endSpan, namespaced⟩ := advance_eq hahead
    cases hp : p t.kind with
    | false =>
      exact .inl
        (ext_fields (by simp [skipWhile, hahead, hp]) (by simp [skipWhile, hahead, hp]) rfl rfl)
    | true =>
      refine .inr ⟨ext_fields ?_ ?_ endSpan.symm namespaced.symm, by simp [size, ahead, hahead]⟩
      · simp [skipWhile, hahead, hp, ahead]
      · have last : ((t :: rest).takeWhile fun t => p t.kind).getLast? =
            some (((rest.takeWhile fun t => p t.kind).getLast?).getD t) := by
          rw [List.takeWhile_cons_of_pos (p := fun t : Token => p t.kind) hp, List.getLast?_cons]
        simp only [skipWhile, hahead, ahead, previousEnd, last, Option.map_some, Option.getD_some]
        cases (rest.takeWhile fun t => p t.kind).getLast? <;> rfl

namespace Leads
variable {b c d : Cursor n}

theorem trans (h : b.Leads c) (h' : c.Leads d) : b.Leads d := by
  induction h' with
  | here => exact h
  | advance _ ih => exact .advance ih
  | inNamespace _ ih => exact .inNamespace ih

theorem take? (h : b.Leads c) {f : TokenKind → Option α} {s : Step α c}
    (taken : c.take? f = some s) : b.Leads s.next := by
  rw [take?_next taken]
  exact .advance h

theorem eat? (h : b.Leads c) {p : TokenKind → Bool} {s : Step Unit c} (eaten : c.eat? p = some s) :
    b.Leads s.next := h.take? eaten

theorem assigned? (h : b.Leads c) {s : Step Ident c} (assigned : c.assigned? = some s) :
    b.Leads s.next := by
  have next : s.next = c.advance.advance := by
    unfold Cursor.assigned? at assigned
    split at assigned <;> cases assigned
    rename_i name span eqSpan rest hahead
    obtain ⟨ahead, -, endSpan, namespaced⟩ := advance_eq hahead
    obtain ⟨ahead', previousEnd', endSpan', namespaced'⟩ := advance_eq ahead
    exact ext_fields ahead'.symm previousEnd'.symm (endSpan'.trans endSpan).symm
      (namespaced'.trans namespaced).symm
  rw [next]
  exact .advance (.advance h)

theorem skipWhile {c : Cursor n} (h : b.Leads c) (p : TokenKind → Bool) :
    b.Leads (c.skipWhile p) := by
  rcases c.skipWhile_eq p with none | ⟨first, shorter⟩
  · rw [none]
    exact h
  · rw [first]
    exact skipWhile (.advance h) p
termination_by c.size

theorem toLine (h : b.Leads c) : b.Leads c.toLine.next := h.skipWhile _

theorem optional (h : b.Leads c) (p : TokenKind → Bool) : b.Leads (c.optional p).next := by
  unfold Cursor.optional
  split
  · exact h.eat? ‹_›
  · exact h

theorem toDeclaration (h : b.Leads c) : b.Leads c.toDeclaration := (h.skipWhile _).skipWhile _

theorem recover (h : b.Leads c) : b.Leads c.recover :=
  ((Leads.advance h).skipWhile _).optional _

end Leads
end Cursor

/-! ### Where readers end -/

/-- From `b` on, reading leads to the place of its result, or to the place where it gives up. -/
def Onward {σ : Type} (b : Cursor n) (r : Except (Failure n) σ) (place : σ → Cursor n) : Prop :=
  match r with
  | .ok s => b.Leads (place s)
  | .error f => b.Leads f.place

namespace Onward
variable {σ τ : Type} {b : Cursor n} {r : Except (Failure n) σ} {place : σ → Cursor n}

theorem pure {s : σ} (h : b.Leads (place s)) : Onward b (pure s : Except (Failure n) σ) place := h

theorem error {f : Failure n} (h : b.Leads f.place) :
    Onward b (.error f : Except (Failure n) σ) place := h

theorem bind {f : σ → Except (Failure n) τ} {goal : τ → Cursor n} (h : Onward b r place)
    (hf : ∀ s, b.Leads (place s) → Onward b (f s) goal) : Onward b (r >>= f) goal := by
  cases r with
  | error e => exact h
  | ok s => exact hf s h

end Onward

namespace Cursor.Leads
variable {b c : Cursor n}

theorem unexpected (h : b.Leads c) (wanted : String) {σ : Type} {place : σ → Cursor n} :
    Onward b (.error (c.unexpected wanted)) place := h

theorem expect (h : b.Leads c) (p : TokenKind → Bool) (wanted : String) :
    Onward b (c.expect p wanted) (·.next) := by
  unfold Cursor.expect
  split
  · exact .pure (h.eat? ‹_›)
  · exact h.unexpected wanted

theorem identifier (h : b.Leads c) : Onward b c.identifier (·.next) := by
  unfold Cursor.identifier
  split
  · exact .pure (h.take? ‹_›)
  · exact h.unexpected _

end Cursor.Leads

section
variable {b : Cursor n}

/-- Items with marks between them. -/
theorem separated_onward {p : TokenKind → Bool} {item : (c : Cursor n) → Read α c}
    (hitem : ∀ c, b.Leads c → Onward b (item c) (·.next)) (c : Cursor n) (h : b.Leads c) :
    Onward b (c.separated p item) (·.next) := by
  rw [Cursor.separated]
  refine (hitem c h).bind fun first hfirst => ?_
  split
  · exact .pure hfirst
  · rename_i sep eaten
    have := first.lt
    have := sep.lt
    exact (separated_onward hitem sep.next (hfirst.eat? eaten)).bind fun more hmore => .pure hmore
termination_by c.size

/-! ### Types -/

theorem readPath_onward (c : Cursor n) (h : b.Leads c) : Onward b (readPath c) (·.next) :=
  separated_onward (fun _ h => h.identifier) c h

mutual

theorem readType_onward (c : Cursor n) (h : b.Leads c) : Onward b (readType c) (·.next) := by
  rw [readType]
  refine (readPath_onward c h).bind fun path hpath => ?_
  split
  · exact .pure hpath
  · rename_i opening eaten
    have := path.lt
    have := opening.lt
    refine (readTypes_onward opening.next (hpath.eat? eaten)).bind fun args hargs => ?_
    exact (hargs.expect _ _).bind fun closing hclosing => .pure hclosing
termination_by 2 * c.size

theorem readTypes_onward (c : Cursor n) (h : b.Leads c) : Onward b (readTypes c) (·.next) := by
  rw [readTypes]
  refine (readType_onward c h).bind fun first hfirst => ?_
  split
  · exact .pure hfirst
  · rename_i sep eaten
    have := first.lt
    have := sep.lt
    exact (readTypes_onward sep.next (hfirst.eat? eaten)).bind fun more hmore => .pure hmore
termination_by 2 * c.size + 1

end

/-! ### Expressions -/

mutual

theorem readExpr_onward (c : Cursor n) (h : b.Leads c) : Onward b (readExpr c) (·.next) := by
  rw [readExpr]
  refine (Level.read_onward .disjunction c h).bind fun value hvalue => ?_
  split
  · exact .pure hvalue
  · rename_i word eaten
    have := value.lt
    have := word.lt
    refine (Level.read_onward .disjunction word.next (hvalue.eat? eaten)).bind
      fun condition hcondition => ?_
    have := condition.lt
    refine (hcondition.expect _ _).bind fun other hother => ?_
    have := other.lt
    exact (readExpr_onward other.next hother).bind fun otherwise hotherwise => .pure hotherwise
termination_by 32 * c.size + 18

theorem Level.read_onward (l : Level) (c : Cursor n) (h : b.Leads c) :
    Onward b (l.read c) (·.next) := by
  rw [Level.read]
  split
  · rename_i op taken
    have := op.lt
    exact (Level.read_onward l op.next (h.take? taken)).bind fun operand hoperand => .pure hoperand
  · refine (Level.operand_onward l c h).bind fun first hfirst => ?_
    have := first.lt
    exact (Level.chain_onward l first.value first.next hfirst).bind fun whole hwhole => .pure hwhole
termination_by 32 * c.size + 2 * l.rank + 5

theorem Level.operand_onward (l : Level) (c : Cursor n) (h : b.Leads c) :
    Onward b (l.operand c) (·.next) := by
  rw [Level.operand]
  split
  · rename_i m tighter
    have := Level.rank_tighter tighter
    exact Level.read_onward m c h
  · exact readPostfix_onward c h
termination_by 32 * c.size + 2 * l.rank + 4

theorem Level.chain_onward (l : Level) (left : Expr) (c : Cursor n) (h : b.Leads c) :
    Onward b (l.chain left c) (·.next) := by
  rw [Level.chain]
  split
  · exact .pure h
  · rename_i op taken
    have := op.lt
    have := l.rank_lt
    refine (Level.operand_onward l op.next (h.take? taken)).bind fun right hright => ?_
    have := right.lt
    exact (Level.chain_onward l _ right.next hright).bind fun more hmore => .pure hmore
termination_by 32 * c.size

theorem readPostfix_onward (c : Cursor n) (h : b.Leads c) :
    Onward b (readPostfix c) (·.next) := by
  rw [readPostfix]
  refine (readPrimary_onward c h).bind fun first hfirst => ?_
  have := first.lt
  exact (readMembers_onward first.value first.next hfirst).bind fun whole hwhole => .pure hwhole
termination_by 32 * c.size + 3

theorem readMembers_onward (base : Expr) (c : Cursor n) (h : b.Leads c) :
    Onward b (readMembers base c) (·.next) := by
  rw [readMembers]
  split
  · rename_i dot eaten
    have := dot.lt
    refine (h.eat? eaten).identifier.bind fun name hname => ?_
    have := name.lt
    split
    · rename_i opening opened
      have := opening.lt
      refine (readArgs_onward opening.next (hname.eat? opened)).bind fun args hargs => ?_
      have := args.le
      refine (hargs.expect _ _).bind fun closing hclosing => ?_
      have := closing.lt
      exact (readMembers_onward _ closing.next hclosing).bind fun more hmore => .pure hmore
    · exact (readMembers_onward _ name.next hname).bind fun more hmore => .pure hmore
  · split
    · rename_i opening opened
      have := opening.lt
      refine (readArgs_onward opening.next (h.eat? opened)).bind fun args hargs => ?_
      have := args.le
      refine (hargs.expect _ _).bind fun closing hclosing => ?_
      have := closing.lt
      exact (readMembers_onward _ closing.next hclosing).bind fun more hmore => .pure hmore
    · exact .pure h
termination_by 32 * c.size

theorem readArgs_onward (c : Cursor n) (h : b.Leads c) : Onward b (readArgs c) (·.next) := by
  rw [readArgs]
  split
  · exact .pure h
  · refine (readExpr_onward c h).bind fun first hfirst => ?_
    split
    · exact .pure hfirst
    · rename_i sep eaten
      have := first.lt
      have := sep.lt
      exact (readArgs_onward sep.next (hfirst.eat? eaten)).bind fun more hmore => .pure hmore
termination_by 32 * c.size + 20

theorem readPrimary_onward (c : Cursor n) (h : b.Leads c) :
    Onward b (readPrimary c) (·.next) := by
  rw [readPrimary]
  split
  · rename_i s taken
    have hs := h.take? taken
    exact .pure hs
  split
  · rename_i s taken
    have hs := h.take? taken
    exact .pure hs
  split
  · rename_i opening eaten
    have := opening.lt
    refine (readExpr_onward opening.next (h.eat? eaten)).bind fun inner hinner => ?_
    exact (hinner.expect _ _).bind fun closing hclosing => .pure hclosing
  split
  · rename_i word eaten
    have := word.lt
    refine (readType_onward word.next (h.eat? eaten)).bind fun type htype => ?_
    have := type.lt
    refine (htype.expect _ _).bind fun opening hopening => ?_
    have := opening.lt
    refine (readArguments_onward opening.next hopening).bind fun args hargs => ?_
    exact (hargs.expect _ _).bind fun closing hclosing => .pure hclosing
  · exact h.unexpected _
termination_by 32 * c.size + 2

theorem readArguments_onward (c : Cursor n) (h : b.Leads c) :
    Onward b (readArguments c) (·.next) := by
  rw [readArguments]
  split
  · exact .pure h
  · refine (readArgument_onward c h).bind fun first hfirst => ?_
    split
    · exact .pure hfirst
    · rename_i sep eaten
      have := first.lt
      have := sep.lt
      exact (readArguments_onward sep.next (hfirst.eat? eaten)).bind fun more hmore => .pure hmore
termination_by 32 * c.size + 20

theorem readArgument_onward (c : Cursor n) (h : b.Leads c) :
    Onward b (readArgument c) (·.next) := by
  rw [readArgument]
  split
  · rename_i name assigned
    have := name.lt
    exact (readExpr_onward name.next (h.assigned? assigned)).bind fun value hvalue => .pure hvalue
  · exact (readExpr_onward c h).bind fun value hvalue => .pure hvalue
termination_by 32 * c.size + 19

end

/-! ### Statements -/

theorem readIndent_onward (c : Cursor n) (h : b.Leads c) : Onward b (readIndent c) (·.next) := by
  unfold readIndent
  refine (h.expect _ _).bind fun line hline => ?_
  exact (hline.expect _ _).bind fun deeper hdeeper => .pure hdeeper

theorem readColon_onward (after : String) (c : Cursor n) (h : b.Leads c) :
    Onward b (readColon after c) (·.next) := by
  unfold readColon
  refine (h.expect _ _).bind fun colon hcolon => ?_
  exact (readIndent_onward _ hcolon).bind fun deeper hdeeper => .pure hdeeper

theorem readTypeAfter_onward (mark : Punctuation) (c : Cursor n) (h : b.Leads c) :
    Onward b (readTypeAfter mark c) (·.next) := by
  unfold readTypeAfter
  split
  · exact .pure h
  · exact (readType_onward _ (h.eat? ‹_›)).bind fun type htype => .pure htype

theorem readValue_onward (c : Cursor n) (h : b.Leads c) : Onward b (readValue c) (·.next) := by
  unfold readValue
  split
  · exact .pure h
  · exact (readExpr_onward _ (h.eat? ‹_›)).bind fun value hvalue => .pure hvalue

theorem readBinding_onward (c : Cursor n) (h : b.Leads c) : Onward b (readBinding c) (·.next) := by
  unfold readBinding
  refine h.identifier.bind fun name hname => ?_
  refine (readTypeAfter_onward _ _ hname).bind fun type htype => ?_
  refine (readValue_onward _ htype).bind fun value hvalue => ?_
  split
  · exact .error hvalue
  · exact .pure hvalue

theorem readReturned_onward (c : Cursor n) (h : b.Leads c) :
    Onward b (readReturned c) (·.next) := by
  unfold readReturned
  split
  · exact .pure h
  · exact (readExpr_onward c h).bind fun value hvalue => .pure hvalue

theorem readSimple_onward (c : Cursor n) (h : b.Leads c) : Onward b (readSimple c) (·.next) := by
  unfold readSimple
  dsimp only
  split
  · exact (readReturned_onward _ (h.eat? ‹_›)).bind fun value hvalue => .pure hvalue
  split
  · exact .pure (h.eat? ‹_›)
  split
  · exact (separated_onward readBinding_onward _ (h.eat? ‹_›)).bind
      fun bindings hbindings => .pure hbindings
  split
  · exact (readExpr_onward _ (h.assigned? ‹_›)).bind fun value hvalue => .pure hvalue
  · refine (readExpr_onward c h).bind fun value hvalue => ?_
    split
    · exact .error hvalue
    · exact .pure hvalue

theorem readLine_onward (c : Cursor n) (h : b.Leads c) : Onward b (readLine c) (·.next) := by
  unfold readLine
  refine (readSimple_onward c h).bind fun s hs => ?_
  split
  · exact .pure hs
  · exact hs.unexpected _

mutual

theorem readStatement_onward (c : Cursor n) (h : b.Leads c) :
    Onward b (readStatement c) (·.next) := by
  rw [readStatement]
  dsimp only
  split
  · rename_i word eaten
    have := word.lt
    refine (readExpr_onward word.next (h.eat? eaten)).bind fun condition hcondition => ?_
    have := condition.lt
    refine (readBlock_onward _ condition.next hcondition).bind fun body hbody => ?_
    have := body.lt
    refine (readElifs_onward body.next hbody).bind fun others hothers => ?_
    have := others.le
    exact (readElse_onward others.next hothers).bind fun otherwise hotherwise => .pure hotherwise
  split
  · rename_i word eaten
    have := word.lt
    refine (readExpr_onward word.next (h.eat? eaten)).bind fun condition hcondition => ?_
    have := condition.lt
    exact (readBlock_onward _ condition.next hcondition).bind fun body hbody => .pure hbody
  · exact readLine_onward c h
termination_by 4 * c.size

theorem readElifs_onward (c : Cursor n) (h : b.Leads c) : Onward b (readElifs c) (·.next) := by
  rw [readElifs]
  split
  · exact .pure h
  · rename_i word eaten
    have := word.lt
    refine (readExpr_onward word.next (h.eat? eaten)).bind fun condition hcondition => ?_
    have := condition.lt
    refine (readBlock_onward _ condition.next hcondition).bind fun body hbody => ?_
    have := body.lt
    exact (readElifs_onward body.next hbody).bind fun more hmore => .pure hmore
termination_by 4 * c.size

theorem readElse_onward (c : Cursor n) (h : b.Leads c) : Onward b (readElse c) (·.next) := by
  rw [readElse]
  split
  · exact .pure h
  · rename_i word eaten
    have := word.lt
    exact (readBlock_onward _ word.next (h.eat? eaten)).bind fun body hbody => .pure hbody
termination_by 4 * c.size

theorem readBlock_onward (after : String) (c : Cursor n) (h : b.Leads c) :
    Onward b (readBlock after c) (·.next) := by
  rw [readBlock]
  refine (readColon_onward after c h).bind fun opening hopening => ?_
  have := opening.lt
  refine (readStatements_onward opening.next hopening).bind fun body hbody => ?_
  exact (hbody.expect _ _).bind fun closing hclosing => .pure hclosing
termination_by 4 * c.size + 2

theorem readStatements_onward (c : Cursor n) (h : b.Leads c) :
    Onward b (readStatements c) (·.next) := by
  rw [readStatements]
  have := c.toLine.le
  dsimp only
  split
  · exact .pure h.toLine
  · refine (readStatement_onward c.toLine.next h.toLine).bind fun first hfirst => ?_
    have := first.lt
    exact (readStatements_onward first.next hfirst).bind fun more hmore => .pure hmore
termination_by 4 * c.size + 1

end

/-! ### Members -/

theorem readTypeParams_onward (c : Cursor n) (h : b.Leads c) :
    Onward b (readTypeParams c) (·.next) := by
  unfold readTypeParams
  split
  · exact .pure h
  · refine (separated_onward (fun _ h => h.identifier) _ (h.eat? ‹_›)).bind fun names hnames => ?_
    exact (hnames.expect _ _).bind fun closing hclosing => .pure hclosing

theorem readAccess_leads (c : Cursor n) (h : b.Leads c) : b.Leads (readAccess c).next := by
  unfold readAccess
  split
  · exact h.take? ‹_›
  · exact h

theorem readField_onward (c : Cursor n) (h : b.Leads c) : Onward b (readField c) (·.next) := by
  unfold readField
  refine (readAccess_leads c h).identifier.bind fun name hname => ?_
  refine (hname.expect _ _).bind fun colon hcolon => ?_
  exact (readType_onward _ hcolon).bind fun type htype => .pure htype

theorem readParam_onward (c : Cursor n) (h : b.Leads c) : Onward b (readParam c) (·.next) := by
  unfold readParam
  refine h.identifier.bind fun name hname => ?_
  refine (hname.expect _ _).bind fun colon hcolon => ?_
  refine (readType_onward _ hcolon).bind fun type htype => ?_
  exact (readValue_onward _ htype).bind fun value hvalue => .pure hvalue

theorem readParams_onward (c : Cursor n) (h : b.Leads c) : Onward b (readParams c) (·.next) := by
  rw [readParams]
  split
  · exact .pure h
  · refine (readParam_onward c h).bind fun first hfirst => ?_
    split
    · exact .pure hfirst
    · rename_i sep eaten
      have := first.lt
      have := sep.lt
      exact (readParams_onward sep.next (hfirst.eat? eaten)).bind fun more hmore => .pure hmore
termination_by c.size

theorem readBody_onward (c : Cursor n) (h : b.Leads c) : Onward b (readBody c) (·.next) := by
  unfold readBody
  split
  · exact .pure (h.eat? ‹_›)
  · refine (readIndent_onward c h).bind fun opening hopening => ?_
    refine (readStatements_onward _ hopening).bind fun body hbody => ?_
    exact (hbody.expect _ _).bind fun closing hclosing => .pure hclosing

theorem readMethod_onward (start : Nat) (c : Cursor n) (h : b.Leads c) :
    Onward b (readMethod start c) (·.next) := by
  unfold readMethod
  refine h.identifier.bind fun name hname => ?_
  refine (hname.expect _ _).bind fun opening hopening => ?_
  refine (readParams_onward _ hopening).bind fun params hparams => ?_
  refine (hparams.expect _ _).bind fun closing hclosing => ?_
  refine (readTypeAfter_onward _ _ hclosing).bind fun returns hreturns => ?_
  refine (hreturns.expect _ _).bind fun colon hcolon => ?_
  exact (readBody_onward _ hcolon).bind fun body hbody => .pure hbody

theorem readMember_onward (c : Cursor n) (h : b.Leads c) : Onward b (readMember c) (·.next) := by
  unfold readMember
  split
  · exact (readMethod_onward _ _ (h.eat? ‹_›)).bind fun m hm => .pure hm
  split
  · exact .pure (h.eat? ‹_›)
  · exact (readField_onward c h).bind fun f hf => .pure hf

theorem readClassMembers_onward (cls : String) (known : List String) (c : Cursor n)
    (h : b.Leads c) : Onward b (readClassMembers cls known c) (·.next) := by
  rw [readClassMembers]
  have := c.toLine.le
  dsimp only
  split
  · exact .pure h.toLine
  · refine (readMember_onward _ h.toLine).bind fun first hfirst => ?_
    have := first.lt
    split
    · rename_i f hfield
      split
      · exact .error hfirst
      · exact (readClassMembers_onward cls (f.name :: known) first.next hfirst).bind
          fun more hmore => .pure hmore
    · exact (readClassMembers_onward cls known first.next hfirst).bind
        fun more hmore => .pure hmore
termination_by c.size

/-! ### Declarations -/

theorem readClass_onward (start : Nat) (decorators : List Decorator) (c : Cursor n)
    (h : b.Leads c) : Onward b (readClass start decorators c) (·.next) := by
  unfold readClass
  refine h.identifier.bind fun name hname => ?_
  refine (readTypeParams_onward _ hname).bind fun params hparams => ?_
  refine (readColon_onward _ _ hparams).bind fun opening hopening => ?_
  refine (readClassMembers_onward _ _ _ hopening).bind fun members hmembers => ?_
  exact (hmembers.expect _ _).bind fun closing hclosing => .pure hclosing

theorem readDecoratorArgs_onward (c : Cursor n) (h : b.Leads c) :
    Onward b (readDecoratorArgs c) (·.next) := by
  unfold readDecoratorArgs
  split
  · exact .pure h
  · rename_i opening eaten
    have hopening := h.eat? eaten
    split
    · exact .pure (hopening.eat? ‹_›)
    · refine (readTypes_onward _ hopening).bind fun args hargs => ?_
      exact (hargs.expect _ _).bind fun closing hclosing => .pure hclosing

theorem readDecorators_onward (c : Cursor n) (h : b.Leads c) :
    Onward b (readDecorators c) (·.next) := by
  rw [readDecorators]
  split
  · exact .pure h
  · rename_i sign eaten
    have := sign.lt
    refine (h.eat? eaten).identifier.bind fun name hname => ?_
    have := name.lt
    refine (readDecoratorArgs_onward _ hname).bind fun args hargs => ?_
    have := args.le
    refine (hargs.expect _ _).bind fun line hline => ?_
    have := line.lt
    exact (readDecorators_onward line.next hline).bind fun more hmore => .pure hmore
termination_by c.size

theorem readImportPath_onward (c : Cursor n) (h : b.Leads c) :
    Onward b (readImportPath c) (·.next) := by
  rw [readImportPath]
  refine h.identifier.bind fun first hfirst => ?_
  split
  · exact .pure hfirst
  · rename_i sep eaten
    have hsep := hfirst.eat? eaten
    have := first.lt
    have := sep.lt
    split
    · exact .pure (hsep.eat? ‹_›)
    · exact (readImportPath_onward sep.next hsep).bind fun more hmore => .pure hmore
termination_by c.size

theorem readAlias_onward (c : Cursor n) (h : b.Leads c) : Onward b (readAlias c) (·.next) := by
  unfold readAlias
  split
  · exact .pure h
  · exact (h.eat? ‹_›).identifier.bind fun name hname => .pure hname

theorem readImport_onward (start : Nat) (c : Cursor n) (h : b.Leads c) :
    Onward b (readImport start c) (·.next) := by
  unfold readImport
  refine (readImportPath_onward c h).bind fun path hpath => ?_
  split
  · exact .pure hpath
  · refine (readAlias_onward _ hpath).bind fun rename hrename => ?_
    split
    · exact .error hrename
    · exact .pure hrename

theorem readSpace_onward (start : Nat) (word : Span) (c : Cursor n) (h : b.Leads c) :
    Onward b (readSpace start word c) (·.next) := by
  unfold readSpace
  split
  · exact .error h
  · exact (readPath_onward _ (.inNamespace h)).bind fun path hpath => .pure hpath

theorem refuseDecorators_onward (what : String) (decorators : List Decorator) (c : Cursor n)
    (h : b.Leads c) : Onward b (refuseDecorators what decorators c) fun _ => c := by
  cases decorators with
  | nil => exact .pure h
  | cons d rest => exact .error h

theorem readDecorated_onward (start : Nat) (decorators : List Decorator) (c : Cursor n)
    (h : b.Leads c) : Onward b (readDecorated start decorators c) (·.next) := by
  unfold readDecorated
  split
  · rename_i word eaten
    refine (refuseDecorators_onward _ decorators c h).bind fun _ _ => ?_
    exact (readSpace_onward _ _ _ (h.eat? eaten)).bind fun d hd => .pure hd
  split
  · rename_i word eaten
    refine (refuseDecorators_onward _ decorators c h).bind fun _ _ => ?_
    exact (readImport_onward _ _ (h.eat? eaten)).bind fun d hd => .pure hd
  split
  · exact (readClass_onward _ decorators _ (h.eat? ‹_›)).bind fun d hd => .pure hd
  · exact h.unexpected _

theorem readDeclaration_onward (c : Cursor n) (h : b.Leads c) :
    Onward b (readDeclaration c) (·.next) := by
  unfold readDeclaration
  split
  · exact .pure ((h.take? ‹_›).optional _)
  · refine (readDecorators_onward c h).bind fun decorators hdecorators => ?_
    exact (readDecorated_onward _ _ _ hdecorators).bind fun d hd => .pure hd

end
end StagedMapping.Source
