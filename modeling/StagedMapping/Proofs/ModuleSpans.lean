import StagedMapping.Proofs.ParsedSpans
import StagedMapping.Source.Module.Parser

/-! Where the declarations of a source are written. A source is read past every problem, and
each part that is read, like each problem, stands in the text. The declarations of a source that
can be read are nested and follow one another (`Module.parse_nested`); so every part of it
stands in the text (`Module.parse_inside`), as does what is wrong with a source that cannot be
read (`Module.parse_problems_inside`). -/
namespace StagedMapping.Source
variable {n : Nat} {text : List Char}

/-! ### Members -/

theorem readTypeParams_located (c : Cursor n) (hc : c.Ordered text) :
    Locates text (readTypeParams c) fun r => Stretch text c r.next [] := by
  unfold readTypeParams
  split
  · exact .pure (.stay c)
  · rename_i opening eaten
    have hopening := hc.eat? eaten
    have hnames : Locates text (readNames opening.next) fun s =>
        Passage text opening.next s.next (s.value.flatMap fun _ => []) :=
      separated_located (fun _ h => h.word) _ hopening.ordered
    refine hnames.bind fun names hnames => ?_
    refine (hnames.ordered.expect _ _).bind fun closing hclosing => ?_
    have whole := (hopening.append hnames).past hclosing
    exact .pure (whole.sub (List.nil_sublist _)).stretch

theorem readAccess_located (c : Cursor n) (hc : c.Ordered text) :
    Stretch text c (readAccess c).next [] := by
  unfold readAccess
  split
  · exact (hc.take? ‹_›).stretch
  · exact .stay c

theorem readField_located (c : Cursor n) (hc : c.Ordered text) :
    Locates text (readField c) fun s => Passage text c s.next [s.value.outline] := by
  unfold readField
  have haccess := readAccess_located c hc
  refine (haccess.ordered hc).word.bind fun name hname => ?_
  refine (hname.ordered.expect _ _).bind fun colon hcolon => ?_
  refine (readType_located _ hcolon.ordered).bind fun type htype => ?_
  exact .pure (((haccess.andThen hname).past hcolon).append htype).node

theorem readParam_located (c : Cursor n) (hc : c.Ordered text) :
    Locates text (readParam c) fun s => Passage text c s.next [s.value.outline] := by
  unfold readParam
  refine hc.word.bind fun name hname => ?_
  refine (hname.ordered.expect _ _).bind fun colon hcolon => ?_
  refine (readType_located _ hcolon.ordered).bind fun type htype => ?_
  have htyped := (hname.past hcolon).append htype
  exact (readValue_located _ htype.ordered).bind fun value hvalue =>
    .pure (htyped.andMaybe hvalue).node

theorem readParams_located (c : Cursor n) (hc : c.Ordered text) :
    Locates text (readParams c) fun r =>
      Stretch text c r.next (r.value.map Param.outline) := by
  rw [readParams]
  split
  · exact .pure (.stay c)
  · refine (readParam_located c hc).bind fun first hfirst => ?_
    split
    · exact .pure hfirst.append_nil.stretch
    · rename_i sep eaten
      have hsep := hfirst.past (hfirst.ordered.eat? eaten)
      have := first.lt
      have := sep.lt
      exact (readParams_located sep.next hsep.ordered).bind fun more hmore =>
        .pure (hsep.andMaybe hmore).stretch
termination_by c.size

theorem readBody_located (c : Cursor n) (hc : c.Ordered text) :
    Locates text (readBody c) fun s =>
      Passage text c s.next (otherwiseOutlines s.value) := by
  unfold readBody
  split
  · rename_i dots eaten
    have hdots := hc.eat? eaten
    exact .pure hdots
  · refine (readIndent_located c hc).bind fun opening hopening => ?_
    refine (readStatements_located _ hopening.ordered).bind fun body hbody => ?_
    have hbody := hopening.andMaybe hbody
    exact (hbody.ordered.expect _ _).bind fun closing hclosing => .pure (hbody.past hclosing)

/-- What stands before the cursor, from `b` on, is the word that starts the method. -/
theorem readMethod_located (c : Cursor n) {b : Cursor n} (hb : Passage text b c []) :
    Locates text (readMethod b.span.start c) fun s => Passage text b s.next [s.value.outline] := by
  unfold readMethod
  refine hb.ordered.word.bind fun name hname => ?_
  refine (hname.ordered.expect _ _).bind fun opening hopening => ?_
  have hopening := (hb.past hname).past hopening
  refine (readParams_located _ hopening.ordered).bind fun params hparams => ?_
  have hparams := hopening.andMaybe hparams
  refine (hparams.ordered.expect _ _).bind fun closing hclosing => ?_
  have hclosing := hparams.past hclosing
  refine (readTypeAfter_located _ _ hclosing.ordered).bind fun returns hreturns => ?_
  have hreturns := hclosing.andMaybe hreturns
  refine (hreturns.ordered.expect _ _).bind fun colon hcolon => ?_
  have hcolon := hreturns.past hcolon
  exact (readBody_located _ hcolon.ordered).bind fun body hbody => .pure (hcolon.append hbody).node

/-- The node of a member; one that says nothing is none. -/
def Member.outlines : Member → List Outline
  | .field f => [f.outline]
  | .method m => [m.outline]
  | .nothing => []

theorem readMember_located (c : Cursor n) (hc : c.Ordered text) :
    Locates text (readMember c) fun s => Passage text c s.next s.value.outlines := by
  unfold readMember
  split
  · exact (readMethod_located _ (hc.eat? ‹_›)).bind fun m hm => .pure hm
  split
  · rename_i s eaten
    have hs := hc.eat? eaten
    exact .pure hs
  · exact (readField_located c hc).bind fun f hf => .pure hf

theorem readClassMembers_located (cls : String) (known : List String) (c : Cursor n)
    (hc : c.Ordered text) :
    Locates text (readClassMembers cls known c) fun r =>
      Stretch text c r.next (r.value.flatMap Member.outlines) := by
  rw [readClassMembers]
  have hline := hc.toLine
  have := c.toLine.le
  dsimp only
  split
  · exact .pure hline
  · refine (readMember_located _ (hline.ordered hc)).bind fun first hfirst => ?_
    have := first.lt
    split
    · rename_i f hfield
      rw [hfield] at hfirst
      split
      · exact .error (hfirst.nested _ List.mem_cons_self).inside hfirst.ordered
      · exact (readClassMembers_located cls (f.name :: known) first.next hfirst.ordered).bind
          fun more hmore => .pure (hline.andMaybe (hfirst.andMaybe hmore).stretch)
    · exact (readClassMembers_located cls known first.next hfirst.ordered).bind
        fun more hmore => .pure (hline.andMaybe (hfirst.andMaybe hmore).stretch)
termination_by c.size

namespace Member

/-- The nodes of the fields among the members. -/
def fieldOutlines (members : List Member) : List Outline :=
  (members.filterMap field?).map Field.outline

/-- The nodes of the methods among the members. -/
def methodOutlines (members : List Member) : List Outline :=
  (members.filterMap method?).map Method.outline

theorem fieldOutlines_sublist (members : List Member) :
    (fieldOutlines members).Sublist (members.flatMap outlines) := by
  induction members with
  | nil => exact .slnil
  | cons member rest ih =>
    cases member with
    | field f => exact ih.cons_cons f.outline
    | method m => exact ih.cons m.outline
    | nothing => exact ih

theorem methodOutlines_sublist (members : List Member) :
    (methodOutlines members).Sublist (members.flatMap outlines) := by
  induction members with
  | nil => exact .slnil
  | cons member rest ih =>
    cases member with
    | field f => exact ih.cons f.outline
    | method m => exact ih.cons_cons m.outline
    | nothing => exact ih

/-- A field and a method do not overlap. -/
theorem outlines_apart {members : List Member}
    (h : (members.flatMap outlines).Pairwise Outline.Before) :
    ∀ p ∈ fieldOutlines members, ∀ q ∈ methodOutlines members, p.Before q ∨ q.Before p := by
  induction members with
  | nil => exact List.forall_mem_nil _
  | cons member rest ih =>
    cases member with
    | field f =>
      obtain ⟨before, hrest⟩ := List.pairwise_cons.1 h
      exact List.forall_mem_cons.2
        ⟨fun q hq => .inl (before q ((methodOutlines_sublist rest).mem hq)), ih hrest⟩
    | method m =>
      obtain ⟨before, hrest⟩ := List.pairwise_cons.1 h
      exact fun p hp => List.forall_mem_cons.2
        ⟨.inr (before p ((fieldOutlines_sublist rest).mem hp)), ih hrest p hp⟩
    | nothing => exact ih h

theorem interleave_subset (members : List Member) :
    Outline.interleave (fieldOutlines members) (methodOutlines members) ⊆
      members.flatMap outlines :=
  fun _ hp => (Outline.mem_interleave.1 hp).elim
    (fun h => (fieldOutlines_sublist members).mem h)
    fun h => (methodOutlines_sublist members).mem h

/-- The members of a class, fields and methods apart, are put in the order they were read in. -/
theorem interleave_inOrder {members : List Member}
    (h : (members.flatMap outlines).Pairwise Outline.Before)
    (nested : ∀ p ∈ members.flatMap outlines, p.Nested text) :
    (Outline.interleave (fieldOutlines members) (methodOutlines members)).Pairwise
      Outline.Before :=
  Outline.pairwise_interleave (h.sublist (fieldOutlines_sublist members))
    (h.sublist (methodOutlines_sublist members))
    (fun p hp => nested p ((fieldOutlines_sublist members).mem hp))
    (fun p hp => nested p ((methodOutlines_sublist members).mem hp)) (outlines_apart h)

end Member

/-! ### Declarations -/

/-- What stands before the cursor, from `b` on, are the decorators and a word. -/
theorem readClass_located (decorators : List Decorator) (c : Cursor n) {b : Cursor n}
    (hb : Passage text b c (decorators.map Decorator.outline)) :
    Locates text (readClass b.span.start decorators c) fun s =>
      Passage text b s.next [s.value.outline] := by
  unfold readClass
  refine hb.ordered.word.bind fun name hname => ?_
  have hname := hb.past hname
  refine (readTypeParams_located _ hname.ordered).bind fun params hparams => ?_
  have hparams := hname.pastMaybe hparams
  refine (readColon_located _ _ hparams.ordered).bind fun opening hopening => ?_
  have hopening := hparams.past hopening
  refine (readClassMembers_located _ _ _ hopening.ordered).bind fun members hmembers => ?_
  have hmembers := hopening.andMaybe hmembers
  refine (hmembers.ordered.expect _ _).bind fun closing hclosing => ?_
  have whole := hmembers.past hclosing
  obtain ⟨decorated, written, apart⟩ := List.pairwise_append.1 whole.row.inOrder
  have inOrder := Member.interleave_inOrder written fun p hp =>
    whole.nested p (List.mem_append_right _ hp)
  have hparts := whole.rearrange
    (List.append_subset.2 ⟨List.subset_append_left _ _, fun p hp =>
      List.mem_append_right _ (Member.interleave_subset _ hp)⟩)
    (List.pairwise_append.2 ⟨decorated, inOrder, fun p hp q hq =>
      apart p hp q (Member.interleave_subset _ hq)⟩)
  exact .pure hparts.node

theorem readDecoratorArgs_located (c : Cursor n) (hc : c.Ordered text) :
    Locates text (readDecoratorArgs c) fun r =>
      Stretch text c r.next (TypeExpr.outlines r.value) := by
  unfold readDecoratorArgs
  split
  · exact .pure (.stay c)
  · rename_i opening eaten
    have hopening := hc.eat? eaten
    split
    · rename_i closing closed
      have hclosing := hopening.ordered.eat? closed
      exact .pure (hopening.past hclosing).stretch
    · refine (readTypes_located _ hopening.ordered).bind fun args hargs => ?_
      refine (hargs.ordered.expect _ _).bind fun closing hclosing => ?_
      exact .pure ((hopening.append hargs).past hclosing).stretch

theorem readDecorators_located (c : Cursor n) (hc : c.Ordered text) :
    Locates text (readDecorators c) fun r =>
      Stretch text c r.next (r.value.map Decorator.outline) := by
  rw [readDecorators]
  split
  · exact .pure (.stay c)
  · rename_i sign eaten
    have hsign := hc.eat? eaten
    have := sign.lt
    refine hsign.ordered.word.bind fun name hname => ?_
    have hname := hsign.past hname
    have := name.lt
    refine (readDecoratorArgs_located _ hname.ordered).bind fun args hargs => ?_
    have hdecorator := (hname.andMaybe hargs).node
    have := args.le
    refine (hdecorator.ordered.expect _ _).bind fun line hline => ?_
    have hline := hdecorator.past hline
    have := line.lt
    exact (readDecorators_located line.next hline.ordered).bind fun more hmore =>
      .pure (hline.andMaybe hmore).stretch
termination_by c.size

theorem readImportPath_located (c : Cursor n) (hc : c.Ordered text) :
    Locates text (readImportPath c) fun s => Passage text c s.next [] := by
  rw [readImportPath]
  refine hc.word.bind fun first hfirst => ?_
  split
  · exact .pure hfirst
  · rename_i sep eaten
    have hsep := hfirst.past (hfirst.ordered.eat? eaten)
    have := first.lt
    have := sep.lt
    split
    · rename_i star starred
      have hstar := hsep.ordered.eat? starred
      exact .pure (hsep.past hstar)
    · exact (readImportPath_located sep.next hsep.ordered).bind fun more hmore =>
        .pure (hsep.past hmore)
termination_by c.size

theorem readAlias_located (c : Cursor n) (hc : c.Ordered text) :
    Locates text (readAlias c) fun r => Stretch text c r.next [] := by
  unfold readAlias
  split
  · exact .pure (.stay c)
  · rename_i word eaten
    have hword := hc.eat? eaten
    exact hword.ordered.word.bind fun name hname => .pure (hword.past hname).stretch

/-- What stands before the cursor, from `b` on, is the word that starts the import. -/
theorem readImport_located (c : Cursor n) {b : Cursor n} (hb : Passage text b c []) :
    Locates text (readImport b.span.start c) fun s => Passage text b s.next [s.value.outline] := by
  unfold readImport
  refine (readImportPath_located c hb.ordered).bind fun path hpath => ?_
  have hpath := hb.past hpath
  split
  · exact .pure hpath.node
  · refine (readAlias_located _ hpath.ordered).bind fun rename hrename => ?_
    have whole := hpath.pastMaybe hrename
    split
    · exact .error whole.ordered.span whole.ordered
    · exact .pure whole.node

/-- What stands before the cursor, from `b` on, is the word that starts the namespace. -/
theorem readSpace_located {word : Span} (hword : word.Inside text) (c : Cursor n) {b : Cursor n}
    (hb : Passage text b c []) :
    Locates text (readSpace b.span.start word c) fun s =>
      Passage text b s.next [s.value.outline] := by
  unfold readSpace
  split
  · exact .error hword hb.ordered
  · have here : c.inNamespace.next.Ordered text := ⟨hb.ordered.inside, hb.ordered.ordered⟩
    refine (readPath_located _ here).bind fun path hpath => ?_
    have onward : Passage text c path.next [] := ⟨hpath.start, hpath.stop, hpath.row,
      hpath.nested, hpath.following, hpath.ordered⟩
    exact .pure (hb.past onward).node

theorem refuseDecorators_located (what : String) {decorators : List Decorator}
    (hd : ∀ p ∈ decorators.map Decorator.outline, p.Nested text) (c : Cursor n)
    (hc : c.Ordered text) :
    Locates text (refuseDecorators what decorators c) fun _ => decorators = [] := by
  cases decorators with
  | nil => exact .pure rfl
  | cons d rest =>
    exact .error (hd _ List.mem_cons_self).inside hc

/-- What stands before the cursor, from `b` on, are the decorators. -/
theorem readDecorated_located {decorators : List Decorator} (c : Cursor n) {b : Cursor n}
    (hb : Stretch text b c (decorators.map Decorator.outline)) (hc : c.Ordered text) :
    Locates text (readDecorated b.span.start decorators c) fun s =>
      Passage text b s.next [s.value.outline] := by
  have hrefuse (what : String) := refuseDecorators_located what hb.nested c hc
  unfold readDecorated
  split
  · rename_i word eaten
    have hword := hb.andThen (hc.eat? eaten)
    refine (hrefuse _).bind fun _ bare => ?_
    subst bare
    exact (readSpace_located hc.span _ hword).bind fun d hd => .pure hd
  split
  · rename_i word eaten
    have hword := hb.andThen (hc.eat? eaten)
    refine (hrefuse _).bind fun _ bare => ?_
    subst bare
    exact (readImport_located _ hword).bind fun d hd => .pure hd
  split
  · rename_i word eaten
    have hword := hb.andThen (hc.eat? eaten)
    rw [List.append_nil] at hword
    exact (readClass_located decorators _ hword).bind fun d hd => .pure hd
  · exact hc.unexpected _

theorem readDeclaration_located (c : Cursor n) (hc : c.Ordered text) :
    Locates text (readDeclaration c) fun s => Passage text c s.next [s.value.outline] := by
  unfold readDeclaration
  split
  · rename_i s taken
    have hs := hc.take? taken
    exact .pure (hs.pastMaybe (hs.ordered.optional _)).node
  · refine (readDecorators_located c hc).bind fun decorators hdecorators => ?_
    exact (readDecorated_located _ hdecorators (hdecorators.ordered hc)).bind fun d hd => .pure hd

/-! ### Modules -/

namespace Cursor.Ordered
variable {c : Cursor n}

theorem toDeclaration (hc : c.Ordered text) : Stretch text c c.toDeclaration [] :=
  (hc.passWhile _).andMaybe ((hc.skipWhile _).passWhile _)

theorem recover (hc : c.Ordered text) : c.recover.Ordered text :=
  (optional (hc.advance.skipWhile _) _).ordered (hc.advance.skipWhile _)

end Cursor.Ordered

/-- Without a problem nothing is passed over, so that the declarations follow one another. -/
theorem readDeclarations_located {n : Nat} (c : Cursor n) (hc : c.Ordered text) :
    (∀ p ∈ (readDeclarations c).2, p.span.Inside text) ∧
      ((readDeclarations c).2 = [] →
        Outline.Row c.span.start ((readDeclarations c).1.map Declaration.outline)
            (Text.byteLength text) ∧
          ∀ p ∈ (readDeclarations c).1.map Declaration.outline, p.Nested text) := by
  rw [readDeclarations]
  split
  · exact ⟨List.forall_mem_nil _, fun _ =>
      ⟨⟨hc.span.start.le, List.forall_mem_nil _, .nil⟩, List.forall_mem_nil _⟩⟩
  · have hskip := hc.toDeclaration
    have hnext := hskip.ordered hc
    have hstart : c.toDeclaration.rebase.Ordered text := ⟨hnext.inside, hnext.ordered⟩
    have := c.toDeclaration_size_le
    have located := readDeclaration_located _ hstart
    dsimp only
    split
    · rename_i d hd
      rw [hd] at located
      have : d.next.size < c.toDeclaration.size := d.lt
      obtain ⟨problems, parts⟩ := readDeclarations_located d.next located.ordered
      refine ⟨problems, fun clean => ?_⟩
      obtain ⟨row, nested⟩ := parts clean
      have first := located.row.startingAt hskip.later
      exact ⟨first.append located.following row,
        List.forall_mem_cons.2 ⟨located.nested _ (List.mem_singleton_self _), nested⟩⟩
    · rename_i f hf
      rw [hf] at located
      have := f.place.recover_size_le
      have : f.place.size ≤ c.toDeclaration.size := f.place.size_le
      obtain ⟨problems, -⟩ := readDeclarations_located f.place.recover located.2.recover
      exact ⟨List.forall_mem_cons.2 ⟨located.1, problems⟩, fun clean =>
        absurd clean (List.cons_ne_nil _ _)⟩
termination_by c.size

theorem Cursor.start_ordered {source : String} {tokens : List Token}
    (h : lex source = .ok tokens) : (Cursor.start tokens).Ordered source.toList := by
  obtain ⟨inside, ordered⟩ := lex_placed h
  obtain ⟨lexed, last, -, -, closed⟩ := lex_eq_ok.1 h
  have ended : (tokens.find? (·.kind.isEof)).isSome := by
    rw [List.find?_isSome, closed]
    exact ⟨_, List.mem_append_right _ (List.mem_append_right _ (List.mem_singleton_self _)), rfl⟩
  obtain ⟨e, found⟩ := Option.isSome_iff_exists.1 ended
  have endSpan : (Cursor.start tokens).endSpan = e.span := by
    rw [Cursor.start, found]
    rfl
  obtain ⟨isEof, front, rest, rfl, before⟩ := List.find?_eq_some_iff_append.1 found
  have ahead : (Cursor.start (front ++ e :: rest)).ahead = front := by
    show (front ++ e :: rest).takeWhile (fun t => !t.kind.isEof) = front
    rw [List.takeWhile_append_of_pos before, List.takeWhile_cons_of_neg (by simp [isEof]),
      List.append_nil]
  have sublist : (Cursor.start (front ++ e :: rest)).marks.Sublist
      ((front ++ e :: rest).map (·.span)) := by
    rw [Cursor.marks, ahead, endSpan, List.map_append, List.map_cons]
    exact ((List.nil_sublist _).cons_cons _).append_left _
  have spans : ((front ++ e :: rest).map (·.span)).Pairwise fun s t => s.stop ≤ t.start :=
    List.pairwise_map.2 ordered
  refine ⟨fun s hs => ?_, spans.sublist sublist⟩
  obtain ⟨t, ht, rfl⟩ := List.mem_map.1 (sublist.mem hs)
  exact inside t ht

namespace Module

/-- The declarations of a source are nested, and follow one another. -/
theorem parse_row {source : String} {m : Module} (h : parse source = .ok m) :
    Outline.Row 0 m.outlines (Text.byteLength source.toList) ∧
      ∀ p ∈ m.outlines, p.Nested source.toList := by
  unfold parse at h
  cases hlex : lex source with
  | error problems =>
    rw [hlex] at h
    cases h
  | ok tokens =>
    rw [hlex] at h
    replace h : ofTokens tokens = .ok m := h
    obtain ⟨-, located⟩ := readDeclarations_located _ (Cursor.start_ordered hlex)
    unfold ofTokens at h
    split at h
    · rename_i declarations hread
      cases h
      rw [hread] at located
      obtain ⟨row, nested⟩ := located rfl
      exact ⟨row.startingAt (Nat.zero_le _), nested⟩
    · cases h

/-- Every part of a source stands in its text. -/
theorem parse_inside {source : String} {m : Module} (h : parse source = .ok m) :
    ∀ s ∈ m.spans, s.Inside source.toList := by
  intro s hs
  have place := m.spans_outlines hs
  rw [Outline.listSpans_eq] at place
  obtain ⟨p, hp, hs⟩ := List.mem_flatMap.1 place
  exact ((parse_row h).2 p hp).spans_inside s hs

/-- What is wrong with a source stands in its text. -/
theorem parse_problems_inside {source : String} {problems : List Problem}
    (h : parse source = .error problems) : ∀ p ∈ problems, p.span.Inside source.toList := by
  unfold parse at h
  cases hlex : lex source with
  | error faults =>
    rw [hlex] at h
    cases h
    exact lex_faults hlex
  | ok tokens =>
    rw [hlex] at h
    replace h : ofTokens tokens = .error problems := h
    have located := readDeclarations_located _ (Cursor.start_ordered hlex)
    unfold ofTokens at h
    split at h
    · cases h
    · rename_i declarations found hread
      cases h
      rw [hread] at located
      exact located.1

end Module
end StagedMapping.Source
