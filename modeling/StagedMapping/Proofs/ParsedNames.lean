import StagedMapping.Proofs.ParsedShape
import StagedMapping.Source.Module.Parser

/-! The names in a source. Readers of statements, members and declarations start before tokens
whose names are words that are not reserved, and end before such tokens, as readers of
expressions do. So everything that a source that can be read declares, imports or names as a
type has such names, and the statements of its methods are as the expressions in them
(`Module.parse_named`). -/
namespace StagedMapping.Source
variable {n : Nat}

namespace Cursor
variable {c : Cursor n}

theorem Named.skipWhile (hc : c.Named) (p : TokenKind → Bool) : (c.skipWhile p).Named :=
  fun t ht => hc t ((List.dropWhile_sublist _).mem ht)

theorem Named.toLine (hc : c.Named) : c.toLine.next.Named := hc.skipWhile _

theorem Named.optional (hc : c.Named) (p : TokenKind → Bool) : (c.optional p).next.Named := by
  unfold Cursor.optional
  split
  · exact hc.eat? ‹_›
  · exact hc

end Cursor

/-! ### Statements -/

/-- A local has a name, and its value is written. -/
structure Binding.Written (b : Binding) : Prop where
  name : Lexer.IsName b.name.text
  value : ∀ e ∈ b.value, e.Written

/-- The locals of a statement have names, and its expressions are written. -/
inductive Statement.Written : Statement → Prop where
  | letIn {span : Span} {bindings : List Binding} (hbindings : ∀ b ∈ bindings, b.Written) :
    Written (.letIn span bindings)
  | assign {span : Span} {target : Ident} {value : Expr} (hvalue : value.Written) :
    Written (.assign span target value)
  | expr {span : Span} {value : Expr} (hvalue : value.Written) : Written (.expr span value)
  | branch {span : Span} {condition : Expr} {body : List Statement}
    {others : List (Expr × List Statement)} {otherwise : Option (List Statement)}
    (hcondition : condition.Written) (hbody : ∀ s ∈ body, Written s)
    (hothers : ∀ o ∈ others, o.1.Written) (hbodies : ∀ o ∈ others, ∀ s ∈ o.2, Written s)
    (hotherwise : ∀ body ∈ otherwise, ∀ s ∈ body, Written s) :
    Written (.branch span condition body others otherwise)
  | loop {span : Span} {condition : Expr} {body : List Statement} (hcondition : condition.Written)
    (hbody : ∀ s ∈ body, Written s) : Written (.loop span condition body)
  | ret {span : Span} {value : Option Expr} (hvalue : ∀ e ∈ value, e.Written) :
    Written (.ret span value)
  | pass {span : Span} : Written (.pass span)

theorem readIndent_named (c : Cursor n) (hc : c.Named) :
    Ensures (readIndent c) fun s => s.next.Named := by
  unfold readIndent
  refine (hc.expect _ _).bind fun line hline => ?_
  exact (hline.expect _ _).bind fun deeper hdeeper => .pure hdeeper

theorem readColon_named (after : String) (c : Cursor n) (hc : c.Named) :
    Ensures (readColon after c) fun s => s.next.Named := by
  unfold readColon
  refine (hc.expect _ _).bind fun colon hcolon => ?_
  exact (readIndent_named _ hcolon).bind fun deeper hdeeper => .pure hdeeper

theorem readTypeAfter_named (mark : Punctuation) (c : Cursor n) (hc : c.Named) :
    Ensures (readTypeAfter mark c) fun s => s.next.Named := by
  unfold readTypeAfter
  split
  · exact .pure hc
  · exact (readType_proper _ (hc.eat? ‹_›)).bind fun type htype => .pure htype.2

theorem readValue_named (c : Cursor n) (hc : c.Named) :
    Ensures (readValue c) fun s => (∀ e ∈ s.value, e.Written) ∧ s.next.Named := by
  unfold readValue
  split
  · exact .pure ⟨fun _ he => (by cases he), hc⟩
  · refine (readExpr_written _ (hc.eat? ‹_›)).bind fun value hvalue => .pure ⟨?_, hvalue.2⟩
    rintro _ ⟨⟩
    exact hvalue.1

theorem readBinding_named (c : Cursor n) (hc : c.Named) :
    Ensures (readBinding c) fun s => s.value.Written ∧ s.next.Named := by
  unfold readBinding
  refine hc.identifier.bind fun name hname => ?_
  refine (readTypeAfter_named _ _ hname.2).bind fun type htype => ?_
  refine (readValue_named _ htype).bind fun value hvalue => ?_
  split
  · exact .error
  · exact .pure ⟨⟨hname.1, hvalue.1⟩, hvalue.2⟩

theorem readReturned_named (c : Cursor n) (hc : c.Named) :
    Ensures (readReturned c) fun s => (∀ e ∈ s.value, e.Written) ∧ s.next.Named := by
  unfold readReturned
  split
  · exact .pure ⟨nofun, hc⟩
  · refine (readExpr_written _ hc).bind fun value hvalue => .pure ⟨?_, hvalue.2⟩
    rintro _ ⟨⟩
    exact hvalue.1

theorem readSimple_named (c : Cursor n) (hc : c.Named) :
    Ensures (readSimple c) fun s => s.value.Written ∧ s.next.Named := by
  unfold readSimple
  dsimp only
  split
  · exact (readReturned_named _ (hc.eat? ‹_›)).bind fun value hvalue =>
      .pure ⟨.ret hvalue.1, hvalue.2⟩
  split
  · exact .pure ⟨.pass, hc.eat? ‹_›⟩
  split
  · next word eaten =>
    have hbindings : Ensures (readBindings word.next) fun s =>
        (s.value ≠ [] ∧ ∀ b ∈ s.value, b.Written) ∧ s.next.Named :=
      separated_ensures readBinding_named _ (hc.eat? eaten)
    exact hbindings.bind fun bindings h => .pure ⟨.letIn h.1.2, h.2⟩
  split
  · exact (readExpr_written _ (hc.assigned? ‹_›).2).bind fun value hvalue =>
      .pure ⟨.assign hvalue.1, hvalue.2⟩
  · refine (readExpr_written _ hc).bind fun value hvalue => ?_
    split
    · exact .error
    · exact .pure ⟨.expr hvalue.1, hvalue.2⟩

theorem readLine_named (c : Cursor n) (hc : c.Named) :
    Ensures (readLine c) fun s => s.value.Written ∧ s.next.Named := by
  unfold readLine
  refine (readSimple_named c hc).bind fun s hs => ?_
  split
  · exact .pure hs
  · exact .error

mutual

theorem readStatement_named (c : Cursor n) (hc : c.Named) :
    Ensures (readStatement c) fun s => s.value.Written ∧ s.next.Named := by
  rw [readStatement]
  dsimp only
  split
  · rename_i word eaten
    have := word.lt
    refine (readExpr_written word.next (hc.eat? eaten)).bind fun condition hcondition => ?_
    have := condition.lt
    refine (readBlock_named _ condition.next hcondition.2).bind fun body hbody => ?_
    have := body.lt
    refine (readElifs_named body.next hbody.2).bind fun others ⟨⟨ho, hbodies⟩, hon⟩ => ?_
    have := others.le
    exact (readElse_named others.next hon).bind fun otherwise h =>
      .pure ⟨.branch hcondition.1 hbody.1 ho hbodies h.1, h.2⟩
  split
  · rename_i word eaten
    have := word.lt
    refine (readExpr_written word.next (hc.eat? eaten)).bind fun condition hcondition => ?_
    have := condition.lt
    exact (readBlock_named _ condition.next hcondition.2).bind fun body hbody =>
      .pure ⟨.loop hcondition.1 hbody.1, hbody.2⟩
  · exact readLine_named c hc
termination_by 4 * c.size

theorem readElifs_named (c : Cursor n) (hc : c.Named) :
    Ensures (readElifs c) fun r => ((∀ o ∈ r.value, o.1.Written) ∧
      ∀ o ∈ r.value, ∀ s ∈ o.2, s.Written) ∧ r.next.Named := by
  rw [readElifs]
  split
  · exact .pure ⟨⟨List.forall_mem_nil _, List.forall_mem_nil _⟩, hc⟩
  · rename_i word eaten
    have := word.lt
    refine (readExpr_written word.next (hc.eat? eaten)).bind fun condition hcondition => ?_
    have := condition.lt
    refine (readBlock_named _ condition.next hcondition.2).bind fun body hbody => ?_
    have := body.lt
    refine (readElifs_named body.next hbody.2).bind fun more ⟨⟨ho, hbodies⟩, hon⟩ => ?_
    exact .pure ⟨⟨List.forall_mem_cons.2 ⟨hcondition.1, ho⟩,
      List.forall_mem_cons.2 ⟨hbody.1, hbodies⟩⟩, hon⟩
termination_by 4 * c.size

theorem readElse_named (c : Cursor n) (hc : c.Named) :
    Ensures (readElse c) fun r =>
      (∀ body ∈ r.value, ∀ s ∈ body, s.Written) ∧ r.next.Named := by
  rw [readElse]
  split
  · exact .pure ⟨nofun, hc⟩
  · rename_i word eaten
    have := word.lt
    refine (readBlock_named _ word.next (hc.eat? eaten)).bind fun body hbody =>
      .pure ⟨?_, hbody.2⟩
    rintro _ ⟨⟩
    exact hbody.1
termination_by 4 * c.size

theorem readBlock_named (after : String) (c : Cursor n) (hc : c.Named) :
    Ensures (readBlock after c) fun r => (∀ s ∈ r.value, s.Written) ∧ r.next.Named := by
  rw [readBlock]
  refine (readColon_named after c hc).bind fun opening hopening => ?_
  have := opening.lt
  refine (readStatements_named opening.next hopening).bind fun body hbody => ?_
  exact (hbody.2.expect _ _).bind fun closing hclosing => .pure ⟨hbody.1, hclosing⟩
termination_by 4 * c.size + 2

theorem readStatements_named (c : Cursor n) (hc : c.Named) :
    Ensures (readStatements c) fun r => (∀ s ∈ r.value, s.Written) ∧ r.next.Named := by
  rw [readStatements]
  have := c.toLine.le
  dsimp only
  split
  · exact .pure ⟨List.forall_mem_nil _, hc.toLine⟩
  · refine (readStatement_named c.toLine.next hc.toLine).bind fun first hfirst => ?_
    have := first.lt
    exact (readStatements_named first.next hfirst.2).bind fun more hmore =>
      .pure ⟨List.forall_mem_cons.2 ⟨hfirst.1, hmore.1⟩, hmore.2⟩
termination_by 4 * c.size + 1

end

/-! ### Members -/

theorem readTypeParams_named (c : Cursor n) (hc : c.Named) :
    Ensures (readTypeParams c) fun s => s.next.Named := by
  unfold readTypeParams
  split
  · exact .pure hc
  · have hnames := separated_ensures (n := n) (p := (·.isMark .comma)) fun _ h => h.identifier
    refine (hnames _ (hc.eat? ‹_›)).bind fun names hnames => ?_
    exact (hnames.2.expect _ _).bind fun closing hclosing => .pure hclosing

theorem readAccess_named (c : Cursor n) (hc : c.Named) : (readAccess c).next.Named := by
  unfold readAccess
  split
  · exact hc.take? ‹_›
  · exact hc

/-- A field has a name, and its type is proper. -/
structure Field.Named (f : Field) : Prop where
  name : Lexer.IsName f.name
  type : f.type.Proper

/-- A parameter has a name, its type is proper, and its default is written. -/
structure Param.Named (p : Param) : Prop where
  name : Lexer.IsName p.name
  type : p.type.Proper
  default : ∀ e ∈ p.default, e.Written

theorem readField_named (c : Cursor n) (hc : c.Named) :
    Ensures (readField c) fun s => s.value.Named ∧ s.next.Named := by
  unfold readField
  refine (readAccess_named c hc).identifier.bind fun name hname => ?_
  refine (hname.2.expect _ _).bind fun colon hcolon => ?_
  exact (readType_proper _ hcolon).bind fun type htype => .pure ⟨⟨hname.1, htype.1⟩, htype.2⟩

theorem readParam_named (c : Cursor n) (hc : c.Named) :
    Ensures (readParam c) fun s => s.value.Named ∧ s.next.Named := by
  unfold readParam
  refine hc.identifier.bind fun name hname => ?_
  refine (hname.2.expect _ _).bind fun colon hcolon => ?_
  refine (readType_proper _ hcolon).bind fun type htype => ?_
  exact (readValue_named _ htype.2).bind fun value hvalue =>
    .pure ⟨⟨hname.1, htype.1, hvalue.1⟩, hvalue.2⟩

theorem readParams_named (c : Cursor n) (hc : c.Named) :
    Ensures (readParams c) fun s => (∀ p ∈ s.value, p.Named) ∧ s.next.Named := by
  rw [readParams]
  split
  · exact .pure ⟨List.forall_mem_nil _, hc⟩
  · refine (readParam_named c hc).bind fun first ⟨hvalue, hfirst⟩ => ?_
    split
    · exact .pure ⟨List.forall_mem_singleton.2 hvalue, hfirst⟩
    · rename_i sep eaten
      have := first.lt
      have := sep.lt
      exact (readParams_named sep.next (hfirst.eat? eaten)).bind fun more hmore =>
        .pure ⟨List.forall_mem_cons.2 ⟨hvalue, hmore.1⟩, hmore.2⟩
termination_by c.size

theorem readBody_named (c : Cursor n) (hc : c.Named) :
    Ensures (readBody c) fun r =>
      (∀ body ∈ r.value, ∀ s ∈ body, s.Written) ∧ r.next.Named := by
  unfold readBody
  split
  · exact .pure ⟨fun _ hb => (by cases hb), hc.eat? ‹_›⟩
  · refine (readIndent_named c hc).bind fun opening hopening => ?_
    refine (readStatements_named _ hopening).bind fun body hbody => ?_
    refine (hbody.2.expect _ _).bind fun closing hclosing => .pure ⟨?_, hclosing⟩
    rintro _ ⟨⟩
    exact hbody.1

/-- The parameters of a method are named properly, and its statements are written. -/
structure Method.Named (m : Method) : Prop where
  params : ∀ p ∈ m.params, p.Named
  body : ∀ body ∈ m.body, ∀ s ∈ body, s.Written

/-- What a member names is named properly. -/
def Member.Named : Member → Prop
  | .field f => f.Named
  | .method m => m.Named
  | .nothing => True

theorem readMethod_named (start : Nat) (c : Cursor n) (hc : c.Named) :
    Ensures (readMethod start c) fun s => s.value.Named ∧ s.next.Named := by
  unfold readMethod
  refine hc.identifier.bind fun name hname => ?_
  refine (hname.2.expect _ _).bind fun opening hopening => ?_
  refine (readParams_named _ hopening).bind fun params hparams => ?_
  refine (hparams.2.expect _ _).bind fun closing hclosing => ?_
  refine (readTypeAfter_named _ _ hclosing).bind fun returns hreturns => ?_
  refine (hreturns.expect _ _).bind fun colon hcolon => ?_
  exact (readBody_named _ hcolon).bind fun body hbody =>
    .pure ⟨⟨hparams.1, hbody.1⟩, hbody.2⟩

theorem readMember_named (c : Cursor n) (hc : c.Named) :
    Ensures (readMember c) fun s => s.value.Named ∧ s.next.Named := by
  unfold readMember
  split
  · exact (readMethod_named _ _ (hc.eat? ‹_›)).bind fun m hm => .pure hm
  split
  · exact .pure ⟨trivial, hc.eat? ‹_›⟩
  · exact (readField_named c hc).bind fun f hf => .pure hf

theorem readClassMembers_named (cls : String) (known : List String) (c : Cursor n) (hc : c.Named) :
    Ensures (readClassMembers cls known c) fun s => (∀ m ∈ s.value, m.Named) ∧ s.next.Named := by
  rw [readClassMembers]
  have := c.toLine.le
  dsimp only
  split
  · exact .pure ⟨List.forall_mem_nil _, hc.toLine⟩
  · refine (readMember_named _ hc.toLine).bind fun first ⟨hvalue, hfirst⟩ => ?_
    have := first.lt
    split
    · rename_i f hfield
      rw [hfield] at hvalue
      split
      · exact .error
      · exact (readClassMembers_named cls (f.name :: known) first.next hfirst).bind
          fun more hmore => .pure ⟨List.forall_mem_cons.2 ⟨hvalue, hmore.1⟩, hmore.2⟩
    · exact (readClassMembers_named cls known first.next hfirst).bind
        fun more hmore => .pure ⟨List.forall_mem_cons.2 ⟨hvalue, hmore.1⟩, hmore.2⟩
termination_by c.size

/-! ### Declarations -/

/-- A class and its members are named properly, and the types that it mentions are proper. -/
structure Class.Named (c : Class) : Prop where
  name : Lexer.IsName c.name
  fields : ∀ f ∈ c.fields, f.Named
  methods : ∀ m ∈ c.methods, m.Named
  decorators : ∀ d ∈ c.decorators, ∀ t ∈ d.args, t.Proper

/-- What a declaration declares or imports has proper names. -/
def Declaration.Named : Declaration → Prop
  | .cls c => c.Named
  | .space _ path => path ≠ [] ∧ ∀ name ∈ path, Lexer.IsName name
  | .importType _ path _ => ∀ name ∈ path, Lexer.IsName name
  | .importAll _ path => ∀ name ∈ path, Lexer.IsName name
  | .doc .. => True

theorem readClass_named (start : Nat) {decorators : List Decorator}
    (hd : ∀ d ∈ decorators, ∀ t ∈ d.args, t.Proper) (c : Cursor n) (hc : c.Named) :
    Ensures (readClass start decorators c) fun s => s.value.Named ∧ s.next.Named := by
  unfold readClass
  refine hc.identifier.bind fun name hname => ?_
  refine (readTypeParams_named _ hname.2).bind fun params hparams => ?_
  refine (readColon_named _ _ hparams).bind fun opening hopening => ?_
  refine (readClassMembers_named _ _ _ hopening).bind fun members hmembers => ?_
  refine (hmembers.2.expect _ _).bind fun closing hclosing => .pure ⟨?_, hclosing⟩
  refine ⟨hname.1, fun f hf => ?_, fun m hm => ?_, hd⟩
  · obtain ⟨member, hmember, hfield⟩ := List.mem_filterMap.1 hf
    unfold Member.field? at hfield
    split at hfield <;> cases hfield
    exact hmembers.1 _ hmember
  · obtain ⟨member, hmember, hmethod⟩ := List.mem_filterMap.1 hm
    unfold Member.method? at hmethod
    split at hmethod <;> cases hmethod
    exact hmembers.1 _ hmember

theorem readDecoratorArgs_named (c : Cursor n) (hc : c.Named) :
    Ensures (readDecoratorArgs c) fun s => (∀ t ∈ s.value, t.Proper) ∧ s.next.Named := by
  unfold readDecoratorArgs
  split
  · exact .pure ⟨List.forall_mem_nil _, hc⟩
  · rename_i opening eaten
    have hopening := hc.eat? eaten
    split
    · exact .pure ⟨List.forall_mem_nil _, hopening.eat? ‹_›⟩
    · refine (readTypes_proper _ hopening).bind fun args hargs => ?_
      exact (hargs.2.expect _ _).bind fun closing hclosing => .pure ⟨hargs.1.2, hclosing⟩

theorem readDecorators_named (c : Cursor n) (hc : c.Named) :
    Ensures (readDecorators c) fun s =>
      (∀ d ∈ s.value, ∀ t ∈ d.args, t.Proper) ∧ s.next.Named := by
  rw [readDecorators]
  split
  · exact .pure ⟨List.forall_mem_nil _, hc⟩
  · rename_i sign eaten
    have := sign.lt
    refine (hc.eat? eaten).identifier.bind fun name hname => ?_
    have := name.lt
    refine (readDecoratorArgs_named _ hname.2).bind fun args hargs => ?_
    have := args.le
    refine (hargs.2.expect _ _).bind fun line hline => ?_
    have := line.lt
    exact (readDecorators_named line.next hline).bind fun more hmore =>
      .pure ⟨List.forall_mem_cons.2 ⟨hargs.1, hmore.1⟩, hmore.2⟩
termination_by c.size

theorem readImportPath_named (c : Cursor n) (hc : c.Named) :
    Ensures (readImportPath c) fun s =>
      (∀ name ∈ s.value.1, Lexer.IsName name) ∧ s.next.Named := by
  rw [readImportPath]
  refine hc.identifier.bind fun first hfirst => ?_
  split
  · exact .pure ⟨List.forall_mem_singleton.2 hfirst.1, hfirst.2⟩
  · rename_i sep eaten
    have hsep := hfirst.2.eat? eaten
    have := first.lt
    have := sep.lt
    split
    · exact .pure ⟨List.forall_mem_singleton.2 hfirst.1, hsep.eat? ‹_›⟩
    · exact (readImportPath_named sep.next hsep).bind fun more hmore =>
        .pure ⟨List.forall_mem_cons.2 ⟨hfirst.1, hmore.1⟩, hmore.2⟩
termination_by c.size

theorem readAlias_named (c : Cursor n) (hc : c.Named) :
    Ensures (readAlias c) fun s => s.next.Named := by
  unfold readAlias
  split
  · exact .pure hc
  · exact (hc.eat? ‹_›).identifier.bind fun name hname => .pure hname.2

theorem readImport_named (start : Nat) (c : Cursor n) (hc : c.Named) :
    Ensures (readImport start c) fun s => s.value.Named ∧ s.next.Named := by
  unfold readImport
  refine (readImportPath_named c hc).bind fun path hpath => ?_
  split
  · exact .pure hpath
  · refine (readAlias_named _ hpath.2).bind fun rename hrename => ?_
    split
    · exact .error
    · exact .pure ⟨hpath.1, hrename⟩

theorem readSpace_named (start : Nat) (word : Span) (c : Cursor n) (hc : c.Named) :
    Ensures (readSpace start word c) fun s => s.value.Named ∧ s.next.Named := by
  unfold readSpace
  split
  · exact .error
  · exact (readPath_ensures c.inNamespace.next hc).bind fun path hpath => .pure hpath

theorem readDecorated_named (start : Nat) {decorators : List Decorator}
    (hd : ∀ d ∈ decorators, ∀ t ∈ d.args, t.Proper) (c : Cursor n) (hc : c.Named) :
    Ensures (readDecorated start decorators c) fun s => s.value.Named ∧ s.next.Named := by
  have hrefuse (what : String) : Ensures (refuseDecorators what decorators c) fun _ => True :=
    fun _ _ => trivial
  unfold readDecorated
  split
  · refine (hrefuse _).bind fun _ _ => ?_
    exact (readSpace_named _ _ _ (hc.eat? ‹_›)).bind fun d hd => .pure hd
  split
  · refine (hrefuse _).bind fun _ _ => ?_
    exact (readImport_named _ _ (hc.eat? ‹_›)).bind fun d hd => .pure hd
  split
  · exact (readClass_named _ hd _ (hc.eat? ‹_›)).bind fun d hd => .pure hd
  · exact .error

theorem readDeclaration_named (c : Cursor n) (hc : c.Named) :
    Ensures (readDeclaration c) fun s => s.value.Named ∧ s.next.Named := by
  unfold readDeclaration
  split
  · exact .pure ⟨trivial, (hc.take? ‹_›).optional _⟩
  · refine (readDecorators_named c hc).bind fun decorators hdecorators => ?_
    exact (readDecorated_named _ hdecorators.1 _ hdecorators.2).bind fun d hd => .pure hd

/-! ### Modules -/

theorem readDeclarations_named {n : Nat} (c : Cursor n) (hc : c.Named)
    (hclean : (readDeclarations c).2 = []) : ∀ d ∈ (readDeclarations c).1, d.Named := by
  rw [readDeclarations] at hclean ⊢
  split at hclean
  · rw [if_pos ‹_›]
    exact List.forall_mem_nil _
  · rw [if_neg ‹_›]
    have hstart : c.toDeclaration.rebase.Named := (hc.skipWhile _).skipWhile _
    have := c.toDeclaration_size_le
    dsimp only at hclean ⊢
    split at hclean
    · next d hd =>
      obtain ⟨hvalue, hnext⟩ := readDeclaration_named _ hstart d hd
      have : d.next.size < c.toDeclaration.size := d.lt
      exact List.forall_mem_cons.2 ⟨hvalue, readDeclarations_named d.next hnext hclean⟩
    · cases hclean
termination_by c.size

namespace Module

/-- What a source declares that can be read has proper names. -/
theorem parse_named {source : String} {m : Module} (h : parse source = .ok m) :
    ∀ d ∈ m.declarations, d.Named := by
  unfold parse at h
  cases hlex : lex source with
  | error problems => rw [hlex] at h; cases h
  | ok tokens =>
    rw [hlex] at h
    replace h : ofTokens tokens = .ok m := h
    have hstart : (Cursor.start tokens).Named := fun t ht =>
      named_of_lex hlex t ((List.takeWhile_sublist _).mem ht)
    unfold ofTokens at h
    split at h
    · next declarations hread =>
      cases h
      have hnamed := readDeclarations_named (Cursor.start tokens) hstart
      rw [hread] at hnamed
      exact hnamed rfl
    · cases h

/-- The namespace of a source is a path of names, or there is none. -/
theorem ns_named {source : String} {m : Module} (h : parse source = .ok m) :
    ∃ path, m.ns = Name.joinPath path ∧ ∀ name ∈ path, Lexer.IsName name := by
  unfold ns
  cases hspace : m.declarations.findSome? spacePath? with
  | none => exact ⟨[], rfl, List.forall_mem_nil _⟩
  | some space =>
    obtain ⟨d, hd, hpath⟩ := List.exists_of_findSome?_eq_some hspace
    unfold spacePath? at hpath
    split at hpath
    · cases hpath
      exact ⟨_, rfl, (parse_named h _ hd).2⟩
    · cases hpath

theorem classes_named {source : String} {m : Module} (h : parse source = .ok m) :
    ∀ c ∈ m.classes, c.Named := by
  intro c hc
  obtain ⟨d, hd, hclass⟩ := List.mem_filterMap.1 hc
  unfold class? at hclass
  split at hclass
  · cases hclass
    exact parse_named h _ hd
  · cases hclass

end Module
end StagedMapping.Source
