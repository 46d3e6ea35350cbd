import StagedMapping.Proofs.FactoryNames
import StagedMapping.Proofs.ScopeSafety
import StagedMapping.Proofs.TreeReading

/-! The trees of a plan. Lowering makes written trees of written expressions
(`Lowering.expr_written`), and the stages of a plan are put together of them, of names, and of
members with names. So every tree of a plan of a pass is written (`compile_written`). -/
namespace StagedMapping
open Lexer (IsName)

/-! ### Lowering -/

namespace Lowering
variable (l : Lowering)

theorem reject_written (e : Source.Expr) (why : Inexpressible) : (l.reject e why).value.Written :=
  .const (l := .none) trivial

variable {l} (hread : l.compilation.toInventory.Read)
include hread

set_option linter.unusedSectionVars false in
mutual

/-- The tree of a written expression is written. -/
theorem expr_written (bound : List String) : (e : Source.Expr) → e.Written →
    (l.expr bound e).value.Written
  | .literal _ value, h => by
    cases h.proper with
    | literal h => exact .const h
  | .ident span name, h => by
    rw [expr]
    split
    · cases h.proper with
      | ident h => exact .param h
    · exact l.reject_written _ _
  | .field _ base name, h => by
    cases h.proper with
    | field _ hname => exact .member (expr_written bound base (h.within (.base .self))) hname
  | .method span receiver name args, h => by
    rw [expr]
    split
    · exact l.reject_written _ _
    split
    · exact l.reject_written _ _
    · exact .call (expr_written bound receiver (h.within (.receiver .self)))
        (exprs_written bound args fun a ha => h.within (.methodArg ha .self))
  | .call span callee args, _ => l.reject_written _ _
  | .choice _ value condition otherwise, h =>
    .cond (expr_written bound condition (h.within (.condition .self)))
      (expr_written bound value (h.within (.value .self)))
      (expr_written bound otherwise (h.within (.otherwise .self)))
  | .binary _ lhs op rhs, h =>
    .binary (expr_written bound lhs (h.within (.left .self)))
      (expr_written bound rhs (h.within (.right .self)))
  | .unary _ op operand, h => .unary (expr_written bound operand (h.within (.operand .self)))
  | .construct span type args, h => by
    rw [expr]
    split
    · cases h.proper with
      | construct htype hnames =>
        have named := arguments_written bound args hnames
          fun a ha => h.within (.initializer ha .self)
        exact .init (Inventory.resolve_named hread type htype).qualified
          (fun b hb => (named b hb).1) fun b hb => (named b hb).2
    · exact l.reject_written _ _
  | .paren _ inner, h => expr_written bound inner (h.within (.inner .self))

theorem exprs_written (bound : List String) : (es : List Source.Expr) → (∀ e ∈ es, e.Written) →
    ∀ t ∈ (l.exprs bound es).value, t.Written
  | [], _ => List.forall_mem_nil _
  | e :: rest, h => by
    obtain ⟨he, hrest⟩ := List.forall_mem_cons.1 h
    exact List.forall_mem_cons.2 ⟨expr_written bound e he, exprs_written bound rest hrest⟩

theorem arguments_written (bound : List String) : (args : List Source.Argument) →
    (∀ a ∈ args, ∀ name ∈ a.name?, IsName name.text) → (∀ a ∈ args, a.value.Written) →
    ∀ b ∈ (l.arguments bound args).value, IsName b.1 ∧ b.2.Written
  | [], _, _ => List.forall_mem_nil _
  | .positional _ :: rest, hnames, hvalues =>
    arguments_written bound rest (List.forall_mem_cons.1 hnames).2
      (List.forall_mem_cons.1 hvalues).2
  | .named name value :: rest, hnames, hvalues => by
    obtain ⟨hname, hnames⟩ := List.forall_mem_cons.1 hnames
    obtain ⟨hvalue, hvalues⟩ := List.forall_mem_cons.1 hvalues
    exact List.forall_mem_cons.2 ⟨⟨hname name rfl, expr_written bound value hvalue⟩,
      arguments_written bound rest hnames hvalues⟩

end

theorem optional_written (bound : List String) {e : Option Source.Expr} (h : ∀ x ∈ e, x.Written) :
    ∀ t ∈ (l.optional bound e).value, t.Written := by
  cases e with
  | none => exact nofun
  | some e =>
    rintro _ ⟨⟩
    exact expr_written hread bound e (h e rfl)

end Lowering

/-! ### Residuals -/

mutual

/-- The trees of a residual. -/
def Residual.trees : Residual → List Tree
  | .letIn _ _ value => value.toList
  | .assign _ value => [value]
  | .branch test yes no => test :: (blockTrees yes ++ blockTrees no)
  | .eval value => [value]

def Residual.blockTrees : List Residual → List Tree
  | [] => []
  | r :: rest => r.trees ++ blockTrees rest

end

namespace Residual

theorem blockTrees_eq (rs : List Residual) : blockTrees rs = rs.flatMap trees := by
  induction rs with
  | nil => rfl
  | cons r rest ih => rw [blockTrees, ih, List.flatMap_cons]

/-- The trees of residuals are written. -/
def BlockWritten (rs : List Residual) : Prop := ∀ t ∈ blockTrees rs, t.Written

theorem BlockWritten.nil : BlockWritten [] := List.forall_mem_nil _

theorem BlockWritten.append {rs ss : List Residual} (h : BlockWritten rs) (h' : BlockWritten ss) :
    BlockWritten (rs ++ ss) := by
  intro t ht
  rw [blockTrees_eq, List.flatMap_append, ← blockTrees_eq, ← blockTrees_eq] at ht
  exact (List.mem_append.1 ht).elim (h t) (h' t)

theorem BlockWritten.single {r : Residual} (h : ∀ t ∈ r.trees, t.Written) : BlockWritten [r] := by
  intro t ht
  rw [blockTrees, blockTrees, List.append_nil] at ht
  exact h t ht

theorem BlockWritten.branch {test : Tree} {yes no : List Residual} (ht : test.Written)
    (hy : BlockWritten yes) (hn : BlockWritten no) : BlockWritten [.branch test yes no] :=
  .single (List.forall_mem_cons.2 ⟨ht, List.forall_mem_append.2 ⟨hy, hn⟩⟩)

end Residual

namespace Lowering
open Residual (BlockWritten)
variable {l : Lowering} (hread : l.compilation.toInventory.Read)
include hread

theorem bindings_written (bound : List String) {bs : List Source.Binding}
    (h : ∀ b ∈ bs, b.Written) : BlockWritten (l.bindings bound bs).value.1 := by
  induction bs generalizing bound with
  | nil => exact .nil
  | cons b rest ih =>
    obtain ⟨hb, hrest⟩ := List.forall_mem_cons.1 h
    show BlockWritten ([_] ++ _)
    refine .append (.single ?_) (ih (b.name.text :: bound) hrest)
    intro t ht
    exact optional_written hread bound hb.value t (Option.mem_toList.1 ht)

theorem assignment_written (bound : List String) (target : Source.Ident) {value : Source.Expr}
    (h : value.Written) : BlockWritten (l.assignment bound target value).value := by
  unfold assignment
  split
  · exact .single (List.forall_mem_singleton.2 (expr_written hread bound value h))
  · exact .nil

set_option linter.unusedSectionVars false in
mutual

/-- The trees of a written statement are written. -/
theorem statement_written (bound : List String) : (s : Source.Statement) → s.Written →
    BlockWritten (l.statement bound s).value.1
  | .letIn _ bs, h => by
    cases h with
    | letIn hbindings =>
      rw [statement]
      exact bindings_written hread bound hbindings
  | .assign _ target value, h => by
    cases h with
    | assign hvalue => exact assignment_written hread bound target hvalue
  | .expr _ value, h => by
    cases h with
    | expr hvalue =>
      exact .single (List.forall_mem_singleton.2 (expr_written hread bound value hvalue))
  | .branch _ condition body others last, h => by
    cases h with
    | branch hcondition hbody hothers hbodies hlast =>
      exact .branch (expr_written hread bound condition hcondition) (block_written bound body hbody)
        (branches_written bound (otherwise_written bound last hlast) others hothers hbodies)
  | .loop .., _ => .nil
  | .ret .., _ => .nil
  | .pass _, _ => .nil

theorem block_written (bound : List String) : (body : List Source.Statement) →
    (∀ s ∈ body, s.Written) → BlockWritten (l.block bound body).value
  | [], _ => .nil
  | s :: rest, h => by
    obtain ⟨hs, hrest⟩ := List.forall_mem_cons.1 h
    exact .append (statement_written bound s hs) (block_written _ rest hrest)

theorem branches_written (bound : List String) {last : List Residual} (hl : BlockWritten last) :
    (others : List (Source.Expr × List Source.Statement)) → (∀ o ∈ others, o.1.Written) →
    (∀ o ∈ others, ∀ s ∈ o.2, s.Written) → BlockWritten (l.branches bound last others).value
  | [], _, _ => hl
  | (condition, body) :: rest, ho, hb => by
    obtain ⟨hcondition, ho⟩ := List.forall_mem_cons.1 ho
    obtain ⟨hbody, hb⟩ := List.forall_mem_cons.1 hb
    exact .branch (expr_written hread bound condition hcondition) (block_written bound body hbody)
      (branches_written bound hl rest ho hb)

theorem otherwise_written (bound : List String) : (last : Option (List Source.Statement)) →
    (∀ body ∈ last, ∀ s ∈ body, s.Written) → BlockWritten (l.otherwise bound last).value
  | none, _ => .nil
  | some body, h => block_written bound body (h body rfl)

end

end Lowering

/-! ### Names in trees -/

namespace Tree

theorem substituteArgs_eq_map (replace : String → Option Tree) (ts : List Tree) :
    substituteArgs replace ts = ts.map (substitute replace) := by
  induction ts with
  | nil => rfl
  | cons t rest ih => rw [substituteArgs, ih, List.map_cons]

/-- Trees in the place of names leave a tree written, if they are. -/
theorem Written.substitute {replace : String → Option Tree}
    (hr : ∀ n t, IsName n → replace n = some t → t.Written) {t : Tree} (h : t.Written) :
    (t.substitute replace).Written := by
  induction h with
  | const h => exact .const h
  | @param name hname =>
    rw [Tree.substitute]
    cases hreplace : replace name with
    | none => exact .param hname
    | some t => exact hr name t hname hreplace
  | member _ hname ih => exact .member ih hname
  | call _ _ ih ihargs =>
    refine .call ih fun a ha => ?_
    rw [substituteArgs_eq_map] at ha
    obtain ⟨b, hb, rfl⟩ := List.mem_map.1 ha
    exact ihargs b hb
  | cond _ _ _ iht ihy ihn => exact .cond iht ihy ihn
  | binary _ _ ihl ihr => exact .binary ihl ihr
  | unary _ ih => exact .unary ih
  | init htype hnames _ ih =>
    rw [Tree.substitute, substituteBindings_eq_map]
    refine .init htype (fun b hb => ?_) fun b hb => ?_
    · obtain ⟨d, hd, rfl⟩ := List.mem_map.1 hb
      exact hnames d hd
    · obtain ⟨d, hd, rfl⟩ := List.mem_map.1 hb
      exact ih d hd

/-- A part of a written tree is written. -/
theorem Written.within {part t : Tree} (h : t.Written) (hpart : part.Within t) : part.Written := by
  induction hpart with
  | self => exact h
  | base _ ih => cases h with | member hbase => exact ih hbase
  | receiver _ ih => cases h with | call hreceiver => exact ih hreceiver
  | arg ha _ ih => cases h with | call _ hargs => exact ih (hargs _ ha)
  | test _ ih => cases h with | cond ht => exact ih ht
  | yes _ ih => cases h with | cond _ hy => exact ih hy
  | no _ ih => cases h with | cond _ _ hn => exact ih hn
  | lhs _ ih => cases h with | binary hl => exact ih hl
  | rhs _ ih => cases h with | binary _ hr => exact ih hr
  | operand _ ih => cases h with | unary h => exact ih h
  | value hb _ ih => cases h with | init _ _ hvalues => exact ih (hvalues _ hb)

end Tree

/-! ### Names of stages -/

namespace Convention

/-- No reserved word starts like the source of a stage. -/
theorem isName_numbered (digits : List Char) (h : ∀ c ∈ digits, Lexer.isIdentPart c = true) :
    IsName (String.ofList ('x' :: digits)) where
  start := ⟨'x', digits, String.toList_ofList, rfl⟩
  parts := by
    rw [String.toList_ofList]
    exact List.forall_mem_cons.2 ⟨rfl, h⟩
  free := by
    have words : ∀ k ∈ Keyword.all, ∀ w ∈ k.spelling :: k.aliases, w.toList.head? ≠ some 'x' := by
      decide
    have other : ∀ k ∈ Keyword.all, String.ofList ('x' :: digits) ∉ k.spelling :: k.aliases := by
      intro k hk hw
      exact words k hk _ hw (by rw [String.toList_ofList]; rfl)
    have free : Keyword.ofSpelling? (String.ofList ('x' :: digits)) = none := by
      rw [Keyword.ofSpelling?, findSpelling, Option.or_eq_none_iff, List.find?_eq_none,
        List.find?_eq_none]
      refine ⟨fun k hk same => other k hk ?_, fun k hk same => other k hk ?_⟩
      · rw [beq_iff_eq.1 same]
        exact List.mem_cons_self
      · exact List.mem_cons_of_mem _ (List.contains_iff_mem.1 same)
    rw [Lexer.wordKind, free]

theorem isName_stageParameter : IsName stageParameter :=
  ⟨⟨⟨'_', _, rfl, rfl⟩, List.all_eq_true.1 rfl⟩, rfl⟩

theorem isName_sourceParameter : IsName sourceParameter := isName_numbered [] (by simp)

theorem isName_freshName (taken : List String) : IsName (freshName sourceParameter taken) := by
  unfold freshName
  extract_lets numbered
  cases hfound : (sourceParameter :: numbered).find? fun name => !taken.contains name with
  | none => exact isName_sourceParameter
  | some name =>
    rcases List.mem_cons.1 (List.mem_of_find?_eq_some hfound) with rfl | hmem
    · exact isName_sourceParameter
    · obtain ⟨i, -, rfl⟩ := List.mem_map.1 hmem
      have digits : ∀ c ∈ Nat.toDigits 10 (i + 1), Lexer.isIdentPart c = true := fun c hc => by
        simp [Lexer.isIdentPart, Char.isAlphanum,
          Nat.isDigit_of_mem_toDigits (by decide) (by decide) hc]
      have same : sourceParameter ++ toString (i + 1) =
          String.ofList ('x' :: Nat.toDigits 10 (i + 1)) := by
        rw [← String.toList_inj, String.toList_append, String.toList_ofList, Nat.toString_eq_repr,
          Nat.toList_repr]
        rfl
      show IsName (sourceParameter ++ toString (i + 1))
      rw [same]
      exact isName_numbered _ digits

end Convention

theorem Digest.isPath_short (declaration : String) : Name.IsPath (Digest.short declaration) := by
  have digit : ∀ i < 16, Name.isPathChar (Nat.digitChar i) = true := by decide
  intro c hc
  rw [Digest.short, String.toList_ofList] at hc
  obtain ⟨w, -, hc⟩ := List.mem_flatMap.1 (List.mem_of_mem_take hc)
  obtain ⟨i, -, rfl⟩ := List.mem_map.1 hc
  exact digit _ (Nat.mod_lt _ (by decide))

theorem Convention.isPath_record {base : String} (h : Name.IsPath base) (f : Factory) :
    Name.IsPath (base ++ "_" ++ f.digest) :=
  Name.isPath_append.2 ⟨Name.isPath_append.2 ⟨h, by decide⟩, Digest.isPath_short f.declaration⟩

/-! ### Stages -/

namespace Mapping

theorem overFields_written (fields : List (String × String)) {t : Tree} (h : t.Written) :
    (overFields fields t).Written := by
  refine h.substitute fun n t hn ht => ?_
  split at ht <;> cases ht
  exact .member (.param Convention.isName_stageParameter) hn

theorem stageField_written {name : String} (h : IsName name) : (stageField name).Written :=
  .member (.param Convention.isName_stageParameter) h

/-- Fields after one another. -/
theorem init_written {typeName : String} (htype : Name.IsPath typeName)
    {bindings : List (String × Tree)} (h : ∀ b ∈ bindings, IsName b.1 ∧ b.2.Written) :
    (Tree.init typeName bindings).Written :=
  .init htype (fun b hb => (h b hb).1) fun b hb => (h b hb).2

/-- The default of a parameter is the tree of a written expression. -/
theorem parameterPlans_written {l : Lowering} (hread : l.compilation.toInventory.Read)
    {ps : List Parameter} (h : ∀ p ∈ ps, p.Named) (before : List String) :
    ∀ p ∈ (parameterPlans l before ps).value, ∀ t ∈ p.default, t.Written := by
  induction ps generalizing before with
  | nil => exact List.forall_mem_nil _
  | cons p rest ih =>
    obtain ⟨hp, hrest⟩ := List.forall_mem_cons.1 h
    rw [parameterPlans_cons]
    exact List.forall_mem_cons.2
      ⟨Lowering.optional_written hread before hp.default, ih hrest (before ++ [p.name])⟩

section
variable {m : Mapping} {c : Compilation} {f : Factory} (hf : f.Named)
include hf

theorem fields_named : ∀ field ∈ m.fields c f, IsName field.1 := by
  intro field hfield
  have hname := List.mem_map_of_mem (f := Prod.fst) hfield
  rw [fields_names, List.mem_append, List.mem_cons] at hname
  rcases hname with (hname | hname) | hname
  · rw [hname]
    exact hf.sourceParam
  · obtain ⟨p, hp, same⟩ := List.mem_map.1 hname
    exact same ▸ (hf.parameters p hp).name
  · obtain ⟨v, hv, same⟩ := List.mem_map.1 ((mem_captures f _ _).1 hname).1
    exact same ▸ hf.residualLocals v hv

/-- The first stage has a field for each name. -/
theorem paramsStage_written : (m.factoryPlan c f).paramsStage.body.Written := by
  have fields := fields_named (m := m) (c := c) hf
  refine init_written (Convention.isPath_record (by decide) f) fun b hb => ?_
  obtain ⟨field, hfield, rfl⟩ := List.mem_map.1 hb
  refine ⟨fields field hfield, ?_⟩
  dsimp only
  split
  · exact .param (Convention.isName_freshName _)
  · exact .param (fields field hfield)

variable (hread : c.toInventory.Read)
include hread

theorem vars_written : ∀ v ∈ (m.lower c f).value.vars, IsName v.1 ∧ v.2.Written := by
  rw [lower_vars]
  intro v hv
  obtain ⟨x, hx, rfl⟩ := List.mem_map.1 hv
  obtain ⟨hname, hvalue⟩ := hf.vars x hx
  exact ⟨hname, Lowering.expr_written (l := m.lowering c f) hread _ _ hvalue⟩

theorem properties_written : ∀ p ∈ (m.lower c f).value.properties, IsName p.1 ∧ p.2.Written := by
  rw [lower_properties]
  intro p hp
  obtain ⟨i, hi, rfl⟩ := List.mem_map.1 hp
  obtain ⟨hname, hvalue⟩ := hf.initializers i hi
  exact ⟨hname, Lowering.expr_written (l := m.lowering c f) hread _ _ hvalue⟩

/-- The second stage has these fields again, and one for each variable. -/
theorem varsStage_written : ∀ l ∈ (m.factoryPlan c f).varsStage, l.body.Written := by
  by_cases hv : f.vars = []
  · rw [m.varsStage_of_nil c f hv]
    exact nofun
  · rw [m.varsStage_of_ne_nil c f hv]
    rintro _ ⟨⟩
    refine init_written (Convention.isPath_record (by decide) f)
      (List.forall_mem_append.2 ⟨fun b hb => ?_, fun b hb => ?_⟩)
    · obtain ⟨field, hfield, rfl⟩ := List.mem_map.1 hb
      have hname := fields_named hf field hfield
      exact ⟨hname, stageField_written hname⟩
    · obtain ⟨v, hv, rfl⟩ := List.mem_map.1 hb
      obtain ⟨hname, hvalue⟩ := vars_written hf hread v hv
      exact ⟨hname, overFields_written _ hvalue⟩

end

section
variable {m : Mapping} (hm : m.Named)
include hm

/-- The construction of the target, of initializers and filled properties that are written. -/
theorem construction_written (c : Compilation) {explicit : List (String × Tree)}
    {fallback : String → Tree} (he : ∀ b ∈ explicit, IsName b.1 ∧ b.2.Written)
    (hf : ∀ name, IsName name → (fallback name).Written) :
    (m.construction c explicit fallback).Written := by
  refine init_written hm.target fun b hb => ?_
  obtain ⟨name, -, hname⟩ := List.mem_filterMap.1 hb
  rw [propertyBinding?] at hname
  split at hname
  · next t ht =>
    cases hname
    exact he _ (Bindings.mem_of_get? ht)
  · obtain ⟨p, hp, rfl⟩ := Option.map_eq_some_iff.1 hname
    have same : p.target.name = name := by simpa using List.find?_some hp
    obtain ⟨hsource, htarget⟩ := hm.properties p (List.mem_of_find?_eq_some hp)
    exact ⟨same ▸ htarget, hf _ hsource⟩

theorem defaultStage_written : m.defaultStage.body.Written := by
  refine init_written hm.target fun b hb => ?_
  obtain ⟨p, hp, rfl⟩ := List.mem_map.1 hb
  obtain ⟨hsource, htarget⟩ := hm.properties p hp
  exact ⟨htarget, .member (.param Convention.isName_sourceParameter) hsource⟩

variable {c : Compilation} (hread : c.toInventory.Read) {f : Factory} (hf : f.Named)
include hread hf

theorem degenerateStage_written : (m.degenerateStage c f).value.body.Written := by
  refine construction_written hm c (fun b hb => ?_) fun name hname =>
    .member (.param Convention.isName_sourceParameter) hname
  obtain ⟨t, ht, rfl⟩ := List.mem_map.1 hb
  rw [initializerTrees, Noted.mapM_value] at ht
  obtain ⟨i, hi, rfl⟩ := List.mem_map.1 ht
  obtain ⟨hname, hvalue⟩ := hf.initializers i hi
  refine ⟨hname, Tree.Written.substitute (fun n t _ ht => ?_)
    (Lowering.expr_written (l := m.lowering c f) hread _ _ hvalue)⟩
  split at ht <;> cases ht
  exact .param Convention.isName_sourceParameter

/-- The last stage builds the target. -/
theorem finalStage_written : (m.factoryPlan c f).finalStage.body.Written := by
  rw [finalStage_eq]
  refine construction_written hm c (fun b hb => ?_) fun name hname =>
    .member (stageField_written hf.sourceParam) hname
  obtain ⟨p, hp, rfl⟩ := List.mem_map.1 hb
  obtain ⟨hname, hvalue⟩ := properties_written hf hread p hp
  exact ⟨hname, overFields_written _ hvalue⟩

end
end Mapping

/-! ### Plans -/

/-- The trees of a factory: the defaults of parameters, the residuals, and the stages. -/
def FactoryPlan.trees (f : FactoryPlan) : List Tree :=
  f.parameters.flatMap (·.default.toList) ++ Residual.blockTrees f.residuals ++
    (f.paramsStage :: f.varsStage.toList ++ [f.finalStage]).map (·.body)

def MapPlan.trees (m : MapPlan) : List Tree :=
  m.defaultStage.body :: m.factories.flatMap (·.trees)

/-- The tree is one of the plan, or a part of one. -/
def Tree.OccursIn (t : Tree) (m : MapPlan) : Prop := ∃ whole ∈ m.trees, t.Within whole

theorem Mapping.factoryPlan_written {m : Mapping} (hm : m.Named) {c : Compilation}
    (hread : c.toInventory.Read) {f : Factory} (hf : f.Named) :
    ∀ t ∈ (m.factoryPlan c f).trees, t.Written := by
  refine List.forall_mem_append.2 ⟨List.forall_mem_append.2 ⟨fun t ht => ?_, ?_⟩, ?_⟩
  · obtain ⟨p, hp, ht⟩ := List.mem_flatMap.1 ht
    exact Mapping.parameterPlans_written (l := m.lowering c f) hread hf.parameters [] p hp t
      (Option.mem_toList.1 ht)
  · exact Lowering.block_written (l := m.lowering c f) hread _ _ hf.residuals
  · intro t ht
    obtain ⟨l, hl, rfl⟩ := List.mem_map.1 ht
    rw [List.cons_append, List.mem_cons, List.mem_append, List.mem_singleton] at hl
    rcases hl with rfl | hl | rfl
    · exact Mapping.paramsStage_written hf
    · exact Mapping.varsStage_written hf hread l (Option.mem_toList.1 hl)
    · exact Mapping.finalStage_written hm hread hf

theorem Mapping.plan_written {m : Mapping} (hm : m.Named) {c : Compilation}
    (hread : c.toInventory.Read) : ∀ t ∈ (m.plan c).value.trees, t.Written := by
  refine List.forall_mem_cons.2 ⟨?_, fun t ht => ?_⟩
  · rcases m.plan_defaultStage c with hstage | ⟨f, hf, -, hstage⟩
    · rw [hstage]
      exact Mapping.defaultStage_written hm
    · have written := Mapping.degenerateStage_written hm hread (hm.factories f hf)
      rw [hstage] at written
      exact written
  · obtain ⟨p, hp, ht⟩ := List.mem_flatMap.1 ht
    obtain ⟨f, hf, -, -, rfl⟩ := m.mem_plan c hp
    exact Mapping.factoryPlan_written hm hread (hm.factories f hf) t ht

/-- Every tree in a plan of a pass is written. -/
theorem compile_written {inputs : List Input} {compiled : List CompiledType}
    {options : EmitOptions} {result : PassResult} (h : compile inputs compiled options = .ok result)
    {plan : MapPlan} (hp : plan ∈ result.plans) {t : Tree} (ht : t.OccursIn plan) : t.Written := by
  obtain ⟨c, m, hread, hm, rfl⟩ := mapping_of_compile h hp
  obtain ⟨whole, hwhole, hpart⟩ := ht
  exact (Mapping.plan_written hm hread whole hwhole).within hpart

end StagedMapping
