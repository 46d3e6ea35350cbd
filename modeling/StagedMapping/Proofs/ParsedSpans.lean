import StagedMapping.Proofs.Passages
import StagedMapping.Proofs.SyntaxOutlines
import StagedMapping.Source.Statement.Parser

/-! Where types, expressions and statements are written. Each reader leads past the tokens of
what it reads, and the outlines of its parts are put together there: for the readers of types
this is `readType_located`, for those of expressions `readExpr_located`, and for those of
statements `readStatements_located`. -/
namespace StagedMapping.Source
variable {n : Nat} {text : List Char}

/-! ### Types -/

theorem readPath_located (c : Cursor n) (hc : c.Ordered text) :
    Locates text (readPath c) fun s => Passage text c s.next [] := by
  have names : Locates text (readPath c) fun s =>
      Passage text c s.next (s.value.flatMap fun _ => []) :=
    separated_located (fun _ h => h.word) c hc
  exact names.mono fun _ h => h.sub (List.nil_sublist _)

mutual

theorem readType_located (c : Cursor n) (hc : c.Ordered text) :
    Locates text (readType c) fun s => Passage text c s.next [s.value.outline] := by
  rw [readType]
  refine (readPath_located c hc).bind fun path hpath => ?_
  split
  · exact .pure hpath.node
  · rename_i opening eaten
    have hopening := hpath.past (hpath.ordered.eat? eaten)
    have := path.lt
    have := opening.lt
    refine (readTypes_located opening.next hopening.ordered).bind fun args hargs => ?_
    refine (hargs.ordered.expect _ _).bind fun closing hclosing => ?_
    exact .pure ((hopening.append hargs).past hclosing).node
termination_by 2 * c.size

theorem readTypes_located (c : Cursor n) (hc : c.Ordered text) :
    Locates text (readTypes c) fun s => Passage text c s.next (TypeExpr.outlines s.value) := by
  rw [readTypes]
  refine (readType_located c hc).bind fun first hfirst => ?_
  split
  · exact .pure hfirst.append_nil
  · rename_i sep eaten
    have hsep := hfirst.past (hfirst.ordered.eat? eaten)
    have := first.lt
    have := sep.lt
    exact (readTypes_located sep.next hsep.ordered).bind fun more hmore => .pure (hsep.append hmore)
termination_by 2 * c.size + 1

end

/-! ### Expressions -/

mutual

theorem readExpr_located (c : Cursor n) (hc : c.Ordered text) :
    Locates text (readExpr c) fun s => Passage text c s.next [s.value.outline] := by
  rw [readExpr]
  refine (Level.read_located .disjunction c hc).bind fun value hvalue => ?_
  split
  · exact .pure hvalue
  · rename_i word eaten
    have hword := hvalue.past (hvalue.ordered.eat? eaten)
    have := value.lt
    have := word.lt
    refine (Level.read_located .disjunction word.next hword.ordered).bind
      fun condition hcondition => ?_
    have := condition.lt
    refine (hcondition.ordered.expect _ _).bind fun other hother => ?_
    have := other.lt
    refine (readExpr_located other.next hother.ordered).bind fun otherwise hotherwise => ?_
    have whole := ((hword.append hcondition).past hother).append hotherwise
    exact .pure (whole.merge value.value.outline_span otherwise.value.outline_span)
termination_by 32 * c.size + 18

theorem Level.read_located (l : Level) (c : Cursor n) (hc : c.Ordered text) :
    Locates text (l.read c) fun s => Passage text c s.next [s.value.outline] := by
  rw [Level.read]
  split
  · rename_i op taken
    have hop := hc.take? taken
    have := op.lt
    refine (Level.read_located l op.next hop.ordered).bind fun operand hoperand => ?_
    exact .pure ((hop.append hoperand).nodeTo operand.value.outline_span)
  · refine (Level.operand_located l c hc).bind fun first hfirst => ?_
    have := first.lt
    exact (Level.chain_located l first.value first.next hfirst).bind fun whole hwhole =>
      .pure hwhole
termination_by 32 * c.size + 2 * l.rank + 5

theorem Level.operand_located (l : Level) (c : Cursor n) (hc : c.Ordered text) :
    Locates text (l.operand c) fun s => Passage text c s.next [s.value.outline] := by
  rw [Level.operand]
  split
  · rename_i m h
    have := Level.rank_tighter h
    exact Level.read_located m c hc
  · exact readPostfix_located c hc
termination_by 32 * c.size + 2 * l.rank + 4

/-- What is left of the cursor was read from `b` on. -/
theorem Level.chain_located (l : Level) (left : Expr) (c : Cursor n) {b : Cursor n}
    (hleft : Passage text b c [left.outline]) :
    Locates text (l.chain left c) fun r => Passage text b r.next [r.value.outline] := by
  rw [Level.chain]
  split
  · exact .pure hleft
  · rename_i op taken
    have hop := hleft.past (hleft.ordered.take? taken)
    have := op.lt
    have := l.rank_lt
    refine (Level.operand_located l op.next hop.ordered).bind fun right hright => ?_
    have := right.lt
    have whole := (hop.append hright).merge left.outline_span right.value.outline_span
    exact (Level.chain_located l _ right.next whole).bind fun more hmore => .pure hmore
termination_by 32 * c.size

theorem readPostfix_located (c : Cursor n) (hc : c.Ordered text) :
    Locates text (readPostfix c) fun s => Passage text c s.next [s.value.outline] := by
  rw [readPostfix]
  refine (readPrimary_located c hc).bind fun first hfirst => ?_
  have := first.lt
  exact (readMembers_located first.value first.next hfirst).bind fun whole hwhole => .pure hwhole
termination_by 32 * c.size + 3

theorem readMembers_located (base : Expr) (c : Cursor n) {b : Cursor n}
    (hbase : Passage text b c [base.outline]) :
    Locates text (readMembers base c) fun r => Passage text b r.next [r.value.outline] := by
  rw [readMembers]
  split
  · rename_i dot eaten
    have hdot := hbase.past (hbase.ordered.eat? eaten)
    have := dot.lt
    refine hdot.ordered.word.bind fun name hname => ?_
    have hnamed := hdot.past hname
    have := name.lt
    split
    · rename_i opening opened
      have hopening := hnamed.past (hnamed.ordered.eat? opened)
      have := opening.lt
      refine (readArgs_located opening.next hopening.ordered).bind fun args hargs => ?_
      have hcalled := hopening.andMaybe hargs
      have := args.le
      refine (hcalled.ordered.expect _ _).bind fun closing hclosing => ?_
      have := closing.lt
      have whole := (hcalled.past hclosing).nodeFrom base.outline_span
      exact (readMembers_located _ closing.next whole).bind fun more hmore => .pure hmore
    · have whole := hnamed.nodeFrom base.outline_span
      exact (readMembers_located _ name.next whole).bind fun more hmore => .pure hmore
  · split
    · rename_i opening opened
      have hopening := hbase.past (hbase.ordered.eat? opened)
      have := opening.lt
      refine (readArgs_located opening.next hopening.ordered).bind fun args hargs => ?_
      have hcalled := hopening.andMaybe hargs
      have := args.le
      refine (hcalled.ordered.expect _ _).bind fun closing hclosing => ?_
      have := closing.lt
      have whole := (hcalled.past hclosing).nodeFrom base.outline_span
      exact (readMembers_located _ closing.next whole).bind fun more hmore => .pure hmore
    · exact .pure hbase
termination_by 32 * c.size

theorem readArgs_located (c : Cursor n) (hc : c.Ordered text) :
    Locates text (readArgs c) fun r => Stretch text c r.next (Expr.outlines r.value) := by
  rw [readArgs]
  split
  · exact .pure (.stay c)
  · refine (readExpr_located c hc).bind fun first hfirst => ?_
    split
    · exact .pure hfirst.append_nil.stretch
    · rename_i sep eaten
      have hsep := hfirst.past (hfirst.ordered.eat? eaten)
      have := first.lt
      have := sep.lt
      exact (readArgs_located sep.next hsep.ordered).bind fun more hmore =>
        .pure (hsep.andMaybe hmore).stretch
termination_by 32 * c.size + 20

theorem readPrimary_located (c : Cursor n) (hc : c.Ordered text) :
    Locates text (readPrimary c) fun s => Passage text c s.next [s.value.outline] := by
  rw [readPrimary]
  split
  · rename_i s taken
    have passed := hc.take? taken
    exact .pure passed.node
  split
  · rename_i s taken
    have passed := hc.take? taken
    exact .pure passed.node
  split
  · rename_i opening eaten
    have hopening := hc.eat? eaten
    have := opening.lt
    refine (readExpr_located opening.next hopening.ordered).bind fun inner hinner => ?_
    have := inner.lt
    refine (hinner.ordered.expect _ _).bind fun closing hclosing => ?_
    exact .pure ((hopening.append hinner).past hclosing).node
  split
  · rename_i word eaten
    have hword := hc.eat? eaten
    have := word.lt
    refine (readType_located word.next hword.ordered).bind fun type htype => ?_
    have := type.lt
    refine (htype.ordered.expect _ _).bind fun opening hopening => ?_
    have := opening.lt
    refine (readArguments_located opening.next hopening.ordered).bind fun args hargs => ?_
    have hbuilt := ((hword.append htype).past hopening).andMaybe hargs
    refine (hbuilt.ordered.expect _ _).bind fun closing hclosing => ?_
    exact .pure (hbuilt.past hclosing).node
  · exact hc.unexpected _
termination_by 32 * c.size + 2

theorem readArguments_located (c : Cursor n) (hc : c.Ordered text) :
    Locates text (readArguments c) fun r =>
      Stretch text c r.next (Argument.listOutlines r.value) := by
  rw [readArguments]
  split
  · exact .pure (.stay c)
  · refine (readArgument_located c hc).bind fun first hfirst => ?_
    split
    · exact .pure hfirst.append_nil.stretch
    · rename_i sep eaten
      have hsep := hfirst.past (hfirst.ordered.eat? eaten)
      have := first.lt
      have := sep.lt
      exact (readArguments_located sep.next hsep.ordered).bind fun more hmore =>
        .pure (hsep.andMaybe hmore).stretch
termination_by 32 * c.size + 20

theorem readArgument_located (c : Cursor n) (hc : c.Ordered text) :
    Locates text (readArgument c) fun s => Passage text c s.next s.value.outlines := by
  rw [readArgument]
  split
  · rename_i name assigned
    have hname := hc.assigned? assigned
    have := name.lt
    exact (readExpr_located name.next hname.ordered).bind fun value hvalue =>
      .pure (hname.append hvalue)
  · exact (readExpr_located c hc).bind fun value hvalue => .pure hvalue
termination_by 32 * c.size + 19

end

/-! ### Statements -/

theorem readIndent_located (c : Cursor n) (hc : c.Ordered text) :
    Locates text (readIndent c) fun s => Passage text c s.next [] := by
  unfold readIndent
  refine (hc.expect _ _).bind fun line hline => ?_
  exact (hline.ordered.expect _ _).bind fun deeper hdeeper => .pure (hline.past hdeeper)

theorem readColon_located (after : String) (c : Cursor n) (hc : c.Ordered text) :
    Locates text (readColon after c) fun s => Passage text c s.next [] := by
  unfold readColon
  refine (hc.expect _ _).bind fun colon hcolon => ?_
  exact (readIndent_located _ hcolon.ordered).bind fun deeper hdeeper => .pure (hcolon.past hdeeper)

theorem readTypeAfter_located (mark : Punctuation) (c : Cursor n) (hc : c.Ordered text) :
    Locates text (readTypeAfter mark c) fun r =>
      Stretch text c r.next (r.value.map TypeExpr.outline).toList := by
  unfold readTypeAfter
  split
  · exact .pure (.stay c)
  · rename_i s eaten
    have hs := hc.eat? eaten
    exact (readType_located _ hs.ordered).bind fun type htype => .pure (hs.append htype).stretch

theorem readValue_located (c : Cursor n) (hc : c.Ordered text) :
    Locates text (readValue c) fun r =>
      Stretch text c r.next (r.value.map Expr.outline).toList := by
  unfold readValue
  split
  · exact .pure (.stay c)
  · rename_i s eaten
    have hs := hc.eat? eaten
    exact (readExpr_located _ hs.ordered).bind fun value hvalue => .pure (hs.append hvalue).stretch

theorem readBinding_located (c : Cursor n) (hc : c.Ordered text) :
    Locates text (readBinding c) fun s => Passage text c s.next s.value.outlines := by
  unfold readBinding
  refine hc.identifier.bind fun name hname => ?_
  refine (readTypeAfter_located _ _ hname.ordered).bind fun type htype => ?_
  have htyped := hname.andMaybe htype
  refine (readValue_located _ htyped.ordered).bind fun value hvalue => ?_
  have whole := htyped.andMaybe hvalue
  split
  · exact .error hc.span whole.ordered
  · rw [List.append_assoc] at whole
    exact .pure whole

theorem readReturned_located (c : Cursor n) (hc : c.Ordered text) :
    Locates text (readReturned c) fun r =>
      Stretch text c r.next (r.value.map Expr.outline).toList := by
  unfold readReturned
  split
  · exact .pure (.stay c)
  · exact (readExpr_located c hc).bind fun value hvalue => .pure hvalue.stretch

theorem readSimple_located (c : Cursor n) (hc : c.Ordered text) :
    Locates text (readSimple c) fun s => Passage text c s.next [s.value.outline] := by
  unfold readSimple
  dsimp only
  split
  · rename_i word eaten
    have hword := hc.eat? eaten
    exact (readReturned_located _ hword.ordered).bind fun value hvalue =>
      .pure (hword.andMaybe hvalue).node
  split
  · rename_i word eaten
    have hword := hc.eat? eaten
    exact .pure hword.node
  split
  · rename_i word eaten
    have hword := hc.eat? eaten
    exact (separated_located readBinding_located _ hword.ordered).bind fun bindings hbindings =>
      .pure (hword.append hbindings).node
  split
  · rename_i target assigned
    have htarget := hc.assigned? assigned
    exact (readExpr_located _ htarget.ordered).bind fun value hvalue =>
      .pure (htarget.append hvalue).node
  · refine (readExpr_located c hc).bind fun value hvalue => ?_
    split
    · have inside := (hvalue.nested _ (List.mem_singleton_self _)).inside
      rw [value.value.outline_span] at inside
      exact .error inside hvalue.ordered
    · exact .pure hvalue.node

theorem readLine_located (c : Cursor n) (hc : c.Ordered text) :
    Locates text (readLine c) fun s => Passage text c s.next [s.value.outline] := by
  unfold readLine
  refine (readSimple_located c hc).bind fun s hs => ?_
  split
  · exact .pure hs
  · exact hs.ordered.unexpected _

mutual

theorem readStatement_located (c : Cursor n) (hc : c.Ordered text) :
    Locates text (readStatement c) fun s => Passage text c s.next [s.value.outline] := by
  rw [readStatement]
  dsimp only
  split
  · rename_i word eaten
    have hword := hc.eat? eaten
    have := word.lt
    refine (readExpr_located word.next hword.ordered).bind fun condition hcondition => ?_
    have := condition.lt
    refine (readBlock_located _ condition.next hcondition.ordered).bind fun body hbody => ?_
    have hopened := (hword.append hcondition).append hbody
    have := body.lt
    refine (readElifs_located body.next hbody.ordered).bind fun others hothers => ?_
    have hothers := hopened.andMaybe hothers
    have := others.le
    refine (readElse_located others.next hothers.ordered).bind fun otherwise hotherwise => ?_
    exact .pure (hothers.andMaybe hotherwise).node
  split
  · rename_i word eaten
    have hword := hc.eat? eaten
    have := word.lt
    refine (readExpr_located word.next hword.ordered).bind fun condition hcondition => ?_
    have := condition.lt
    refine (readBlock_located _ condition.next hcondition.ordered).bind fun body hbody => ?_
    exact .pure ((hword.append hcondition).append hbody).node
  · exact readLine_located c hc
termination_by 4 * c.size

theorem readElifs_located (c : Cursor n) (hc : c.Ordered text) :
    Locates text (readElifs c) fun r => Stretch text c r.next (othersOutlines r.value) := by
  rw [readElifs]
  split
  · exact .pure (.stay c)
  · rename_i word eaten
    have hword := hc.eat? eaten
    have := word.lt
    refine (readExpr_located word.next hword.ordered).bind fun condition hcondition => ?_
    have := condition.lt
    refine (readBlock_located _ condition.next hcondition.ordered).bind fun body hbody => ?_
    have hopened := (hword.append hcondition).append hbody
    have := body.lt
    exact (readElifs_located body.next hbody.ordered).bind fun more hmore =>
      .pure (hopened.andMaybe hmore).stretch
termination_by 4 * c.size

theorem readElse_located (c : Cursor n) (hc : c.Ordered text) :
    Locates text (readElse c) fun r => Stretch text c r.next (otherwiseOutlines r.value) := by
  rw [readElse]
  split
  · exact .pure (.stay c)
  · rename_i word eaten
    have hword := hc.eat? eaten
    have := word.lt
    exact (readBlock_located _ word.next hword.ordered).bind fun body hbody =>
      .pure (hword.append hbody).stretch
termination_by 4 * c.size

theorem readBlock_located (after : String) (c : Cursor n) (hc : c.Ordered text) :
    Locates text (readBlock after c) fun s => Passage text c s.next (blockOutlines s.value) := by
  rw [readBlock]
  refine (readColon_located after c hc).bind fun opening hopening => ?_
  have := opening.lt
  refine (readStatements_located opening.next hopening.ordered).bind fun body hbody => ?_
  have hbody := hopening.andMaybe hbody
  exact (hbody.ordered.expect _ _).bind fun closing hclosing => .pure (hbody.past hclosing)
termination_by 4 * c.size + 2

theorem readStatements_located (c : Cursor n) (hc : c.Ordered text) :
    Locates text (readStatements c) fun r => Stretch text c r.next (blockOutlines r.value) := by
  rw [readStatements]
  have hline := hc.toLine
  have := c.toLine.le
  dsimp only
  split
  · exact .pure hline
  · refine (readStatement_located c.toLine.next (hline.ordered hc)).bind fun first hfirst => ?_
    have := first.lt
    exact (readStatements_located first.next hfirst.ordered).bind fun more hmore =>
      .pure (hline.andMaybe (hfirst.andMaybe hmore).stretch)
termination_by 4 * c.size + 1

end

end StagedMapping.Source
