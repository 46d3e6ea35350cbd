import StagedMapping.Proofs.Overloads
import StagedMapping.Proofs.Partition
import StagedMapping.Proofs.TypeIndependence

/-! Types that bodies write. A pass with code has resolved every type that the members of a class
write (`memberTypes_resolved`). Of the types that the body of a method writes, at locals and at
constructions, it asks for one only, that of the final construction, which has to be the target, so
that its name is known (`Compilation.finalType_notes`). The notes of the others are lost, and neither
the acceptance of a method nor its place in a plan depends on what they refer to
(`writtenTypes_reported_iff`). -/
namespace StagedMapping
open Generated

/-! ### The types of a body -/

namespace Source

mutual

/-- The types that an expression writes, in order. -/
def Expr.types : Expr → List TypeExpr
  | .ident .. => []
  | .literal .. => []
  | .field _ base _ => base.types
  | .method _ receiver _ args => receiver.types ++ Expr.listTypes args
  | .call _ callee args => callee.types ++ Expr.listTypes args
  | .choice _ value condition otherwise => value.types ++ condition.types ++ otherwise.types
  | .binary _ lhs _ rhs => lhs.types ++ rhs.types
  | .unary _ _ operand => operand.types
  | .construct _ type args => type :: Argument.listTypes args
  | .paren _ inner => inner.types

def Expr.listTypes : List Expr → List TypeExpr
  | [] => []
  | e :: rest => e.types ++ Expr.listTypes rest

def Argument.types : Argument → List TypeExpr
  | .positional value => value.types
  | .named _ value => value.types

def Argument.listTypes : List Argument → List TypeExpr
  | [] => []
  | a :: rest => a.types ++ Argument.listTypes rest

end

def optionalTypes : Option Expr → List TypeExpr
  | none => []
  | some e => e.types

mutual

/-- The types that a statement writes, in order. -/
def Statement.types : Statement → List TypeExpr
  | .letIn _ bindings => bindings.flatMap fun b => b.type.toList ++ optionalTypes b.value
  | .assign _ _ value => value.types
  | .expr _ value => value.types
  | .branch _ condition body others otherwise =>
    condition.types ++ blockTypes body ++ othersTypes others ++ otherwiseTypes otherwise
  | .loop _ condition body => condition.types ++ blockTypes body
  | .ret _ value => optionalTypes value
  | .pass _ => []

def blockTypes : List Statement → List TypeExpr
  | [] => []
  | s :: rest => s.types ++ blockTypes rest

def othersTypes : List (Expr × List Statement) → List TypeExpr
  | [] => []
  | (condition, body) :: rest => condition.types ++ blockTypes body ++ othersTypes rest

def otherwiseTypes : Option (List Statement) → List TypeExpr
  | none => []
  | some body => blockTypes body

end

theorem blockTypes_append (before after : List Statement) :
    blockTypes (before ++ after) = blockTypes before ++ blockTypes after := by
  induction before with
  | nil => rfl
  | cons s rest ih => rw [List.cons_append, blockTypes, blockTypes, ih, List.append_assoc]

end Source

/-- What is in parentheses writes the same types. -/
theorem construction?_types {type : Source.TypeExpr} {args : List Source.Argument} :
    {e : Source.Expr} → construction? e = some (type, args) →
      e.types = type :: Source.Argument.listTypes args
  | .paren _ inner, h => by
    rw [Source.Expr.types]
    exact construction?_types h
  | .construct .., h => by
    cases h
    rw [Source.Expr.types]

namespace Method
variable (m : Method)

/-- The type of the final construction of a body. -/
def finalType? : Option Source.TypeExpr :=
  (splitFinal (m.body.getD [])).map fun (_, type, _) => type

/-- Every type that a body writes. -/
def bodyTypes : List Source.TypeExpr := Source.blockTypes (m.body.getD [])

/-- What a body writes besides the name of its final construction: the arguments of that type,
and the types of locals and of other constructions. -/
def uncheckedTypes : List Source.TypeExpr :=
  match splitFinal (m.body.getD []) with
  | some (before, type, args) =>
    Source.blockTypes before ++ type.args ++ Source.Argument.listTypes args
  | none => []

variable {m} {before : List Source.Statement} {type : Source.TypeExpr}
  {args : List Source.Argument} (h : splitFinal (m.body.getD []) = some (before, type, args))
include h

theorem bodyTypes_eq : m.bodyTypes =
    Source.blockTypes before ++ type :: Source.Argument.listTypes args := by
  obtain ⟨span, value, hbody, hvalue⟩ := splitFinal_eq_some h
  rw [bodyTypes, hbody, Source.blockTypes_append, Source.blockTypes, Source.Statement.types,
    Source.optionalTypes, construction?_types hvalue, Source.blockTypes, List.append_nil]

/-- A written type is the final one, or it is unchecked. -/
theorem mem_bodyTypes {t : Source.TypeExpr} (ht : t ∈ m.bodyTypes) :
    t = type ∨ t ∈ m.uncheckedTypes := by
  rw [bodyTypes_eq h] at ht
  simp only [uncheckedTypes, h]
  grind

/-- An unchecked type is written, or it is an argument of the final one. -/
theorem mem_uncheckedTypes {t : Source.TypeExpr} (ht : t ∈ m.uncheckedTypes) :
    t ∈ type.args ∨ t ∈ m.bodyTypes := by
  simp only [uncheckedTypes, h] at ht
  rw [bodyTypes_eq h]
  grind

end Method

/-! ### Notes of resolution -/

/-- A name that stands for no type, or for several. -/
def Fault.isUnresolved : Fault → Bool
  | unknownType _ | ambiguousType .. => true
  | _ => false

namespace Inventory
variable (inv : Inventory) (source : Nat) (generics : List String)

/-- A name that is noted is not resolved. -/
theorem lookup_notes (path : List String) (span : Span) :
    (inv.lookup source generics path span).notes = [] ∨
      (inv.lookup source generics path span).value = none ∧
      ∃ fault, fault.isUnresolved = true ∧
        (inv.lookup source generics path span).notes = [⟨fault, span⟩] := by
  have hknown (name : String) : (inv.known name span).notes = [] ∨
      (inv.known name span).value = none ∧
      ∃ fault, fault.isUnresolved = true ∧ (inv.known name span).notes = [⟨fault, span⟩] := by
    unfold known
    split
    · exact .inl rfl
    · exact .inr ⟨rfl, _, rfl, rfl⟩
  unfold lookup
  split
  · exact .inl rfl
  · split
    · exact .inl rfl
    split
    · exact .inl rfl
    split
    · exact .inl rfl
    unfold lookupIn
    dsimp only
    split
    · exact .inl rfl
    split
    · exact hknown _
    split
    · exact .inr ⟨rfl, _, rfl, rfl⟩
    · exact .inl rfl
    · exact .inr ⟨rfl, _, rfl, rfl⟩
  · exact hknown _

/-- In a source without a namespace, a type of the pass is known by the path that is written. -/
theorem lookup_joinPath {path : List String} (span : Span)
    (hc : inv.contains (Name.joinPath path) = true)
    (hns : ∀ context, inv.context? source = some context → context.ns = "") :
    (inv.lookup source generics path span).notes = [] := by
  unfold lookup
  split
  · rfl
  · next name =>
    split
    · rfl
    split
    · rfl
    split
    · rfl
    · next context hcontext =>
      have hlocal : Name.qualify context.ns name = Name.joinPath [name] := by
        rw [hns context hcontext]
        simp [Name.qualify, Name.joinPath]
      unfold lookupIn
      dsimp only
      rw [hlocal, if_pos hc]
      rfl
  · unfold known
    rw [if_pos hc]
    rfl

theorem apply_notes (t : TypeRef) (args : List TypeRef) (span : Span) :
    ∀ n ∈ (inv.apply generics t args span).notes,
      ∃ expected, n.fault = .typeArgumentCount t.qualified expected args.length := by
  unfold apply
  split
  · exact List.forall_mem_nil _
  · split
    · exact List.forall_mem_nil _
    · intro n hn
      cases List.mem_singleton.1 hn
      exact ⟨_, rfl⟩

/-- A written type is resolved after its arguments. -/
theorem resolve_eq (t : Source.TypeExpr) : inv.resolve source generics t = (do
    inv.resolvePath source generics t.path (← inv.resolveAll source generics t.args) t.span) := by
  cases t <;> rfl

theorem resolveAll_length (ts : List Source.TypeExpr) :
    (inv.resolveAll source generics ts).value.length = ts.length := by
  induction ts with
  | nil => rfl
  | cons t rest ih => simp [resolveAll, ih]

theorem mem_resolveAll_notes {ts : List Source.TypeExpr} {n : Problem} :
    n ∈ (inv.resolveAll source generics ts).notes ↔
      ∃ t ∈ ts, n ∈ (inv.resolve source generics t).notes := by
  induction ts with
  | nil => simp [resolveAll]
  | cons t rest ih => simp [resolveAll, ih]

/-- The notes of a path are about its name, or about the number of arguments. -/
theorem resolvePath_notes (path : List String) (args : List TypeRef) (span : Span) :
    ∀ n ∈ (inv.resolvePath source generics path args span).notes,
      n ∈ (inv.lookup source generics path span).notes ∨
      ∃ t, (inv.lookup source generics path span).value = some t ∧
        n ∈ (inv.apply generics t args span).notes := by
  intro n hn
  unfold resolvePath at hn
  rw [Noted.bind_notes, List.mem_append] at hn
  refine hn.imp_right fun hn => ?_
  split at hn
  · cases hn
  · next t ht => exact ⟨t, ht, hn⟩

theorem resolvePath_value (path : List String) (args : List TypeRef) (span : Span) :
    (inv.resolvePath source generics path args span).value =
      match (inv.lookup source generics path span).value with
      | none => .mk "" (Name.joinPath path) args
      | some t => t.withArgs args := by
  unfold resolvePath
  rw [Noted.bind_value]
  cases (inv.lookup source generics path span).value with
  | none => rfl
  | some t => exact inv.apply_value ..

theorem resolvePath_notes_isError (path : List String) (args : List TypeRef) (span : Span) :
    ∀ n ∈ (inv.resolvePath source generics path args span).notes, n.isError = true := by
  intro n hn
  rcases inv.resolvePath_notes source generics path args span n hn with hn | ⟨t, -, hn⟩
  · rcases inv.lookup_notes source generics path span with h | ⟨-, fault, hf, h⟩
    · rw [h] at hn
      cases hn
    · rw [h] at hn
      cases List.mem_singleton.1 hn
      cases fault <;> first | rfl | cases hf
  · obtain ⟨expected, hfault⟩ := inv.apply_notes generics t args span n hn
    rw [Problem.isError, hfault]
    rfl

mutual

/-- Every note of a resolution is an error. -/
theorem resolve_notes_isError : (t : Source.TypeExpr) →
    ∀ n ∈ (inv.resolve source generics t).notes, n.isError = true
  | .named span path, n, hn => inv.resolvePath_notes_isError _ _ _ _ _ n hn
  | .applied span path args, n, hn => by
    rw [resolve, Noted.bind_notes, List.mem_append] at hn
    rcases hn with hn | hn
    · exact resolveAll_notes_isError args n hn
    · exact inv.resolvePath_notes_isError _ _ _ _ _ n hn

theorem resolveAll_notes_isError : (ts : List Source.TypeExpr) →
    ∀ n ∈ (inv.resolveAll source generics ts).notes, n.isError = true
  | [], _, hn => absurd hn List.not_mem_nil
  | t :: rest, n, hn => by
    simp only [resolveAll, Noted.bind_notes, Noted.pure_notes, List.append_nil,
      List.mem_append] at hn
    rcases hn with hn | hn
    · exact resolve_notes_isError t n hn
    · exact resolveAll_notes_isError rest n hn

end

/-- If a written type refers to a type of the pass, in a source of that type's namespace, its
notes are about its arguments or their number. -/
theorem resolve_notes_of_key {key : TypeKey} (hc : inv.contains key.qualified = true)
    (hns : ∀ context, inv.context? source = some context → context.ns = key.ns)
    {t : Source.TypeExpr} (ht : (inv.resolve source generics t).value.key = key) :
    ∀ n ∈ (inv.resolve source generics t).notes,
      (∃ a ∈ t.args, n ∈ (inv.resolve source generics a).notes) ∨
        ∃ expected, n.fault = .typeArgumentCount key.qualified expected t.args.length := by
  intro n hn
  rw [resolve_eq] at ht hn
  rw [Noted.bind_value] at ht
  rw [Noted.bind_notes, List.mem_append, mem_resolveAll_notes] at hn
  refine hn.imp_right fun hn => ?_
  have hvalue := congrArg TypeRef.key (inv.resolvePath_value source generics t.path
    (inv.resolveAll source generics t.args).value t.span)
  rw [ht] at hvalue
  rcases inv.resolvePath_notes _ _ _ _ _ n hn with hn | ⟨found, hfound, hn⟩
  · -- a name that is noted would be that of the type, which is known
    rcases inv.lookup_notes source generics t.path t.span with h | ⟨hnone, -⟩
    · rw [h] at hn
      cases hn
    · rw [hnone] at hvalue
      subst hvalue
      rw [inv.lookup_joinPath source generics t.span hc hns] at hn
      cases hn
  · obtain ⟨expected, hfault⟩ := inv.apply_notes _ _ _ _ n hn
    rw [hfound] at hvalue
    refine ⟨expected, ?_⟩
    rw [hfault, resolveAll_length, hvalue]
    rfl

end Inventory

/-! ### The members of a class -/

/-- The types of the fields of a class, and of the parameters and results of its methods. -/
def Source.Class.memberTypes (c : Source.Class) : List Source.TypeExpr :=
  c.fields.map (·.type) ++ c.methods.flatMap fun m => m.returns.toList ++ m.params.map (·.type)

theorem Descriptor.ofClass_notes (resolve : Source.TypeExpr → Noted Problem TypeRef) (source : Nat)
    (ns : String) (c : Source.Class) {t : Source.TypeExpr} (ht : t ∈ c.memberTypes) :
    (resolve t).notes ⊆ (ofClass resolve source ns c).notes := by
  intro n hn
  unfold ofClass
  simp only [Noted.bind_notes, Noted.pure_notes, List.append_nil, Noted.mapM_notes, ofField]
  rcases List.mem_append.1 ht with ht | ht
  · obtain ⟨f, hf, rfl⟩ := List.mem_map.1 ht
    exact List.mem_append_left _ (List.mem_flatMap.2 ⟨f, hf, hn⟩)
  · obtain ⟨m, hm, ht⟩ := List.mem_flatMap.1 ht
    refine List.mem_append_right _ (List.mem_flatMap.2 ⟨m, hm, ?_⟩)
    unfold ofMethod
    simp only [Noted.bind_notes, Noted.pure_notes, List.append_nil, Noted.mapM_notes, ofParam]
    rcases List.mem_append.1 ht with ht | ht
    · refine List.mem_append_left _ ?_
      cases hr : m.returns with
      | none => simp [hr] at ht
      | some returned =>
        simp only [hr, Option.toList_some, List.mem_singleton] at ht
        subst ht
        simpa using hn
    · obtain ⟨p, hp, rfl⟩ := List.mem_map.1 ht
      exact List.mem_append_right _ (List.mem_flatMap.2 ⟨p, hp, hn⟩)

/-- What is noted of the type of a member is reported. -/
theorem Compilation.memberTypes_reported {files : List SourceFile} {compiled : List CompiledType}
    {name : String} {source : Nat} {ns : String} {cls : Source.Class}
    (ho : (name, .declared source ns cls) ∈ (ofSources files compiled).origins)
    {t : Source.TypeExpr} (ht : t ∈ cls.memberTypes) :
    ∀ n ∈ ((ofSources files compiled).resolve source cls.typeParams t).notes,
      ⟨source, n⟩ ∈ (ofSources files compiled).problems := by
  intro n hn
  refine List.mem_append_right _ ?_
  rw [Noted.mapM_notes]
  refine List.mem_flatMap.2 ⟨_, List.mem_mergeSort.2 ho, ?_⟩
  rw [Noted.bind_notes, Noted.pure_notes, List.append_nil]
  exact List.mem_map_of_mem (Descriptor.ofClass_notes _ source ns cls ht hn)

/-! ### The final construction -/

namespace Compilation
variable {files : List SourceFile} {compiled : List CompiledType}

/-- A class is known by its name, and stands in a source of its namespace. -/
theorem declared_known {name : String} {d : Descriptor} {a : DeclaredAt}
    (hd : (ofSources files compiled).descriptorNamed? name = some d) (ha : d.declared = some a) :
    (ofSources files compiled).contains d.qualified = true ∧
      ∀ context, (ofSources files compiled).context? a.source = some context →
        context.ns = d.key.ns := by
  have hplaced : ∀ o ∈ (Inventory.ofSources files compiled).value.origins,
      ∀ source ns cls, o.2 = .declared source ns cls →
        ∀ context, (ofSources files compiled).context? source = some context → context.ns = ns := by
    refine Inventory.forall_ofSources (fun e he => ?_) fun _ _ _ _ _ h => nomatch h
    obtain ⟨⟨f, i⟩, hf, he⟩ := List.mem_flatMap.1 he
    obtain ⟨cls, -, rfl⟩ := List.mem_map.1 he
    intro source ns cls h context hcontext
    cases h
    obtain ⟨g, hg, rfl⟩ := Option.map_eq_some_iff.1 hcontext
    cases (List.mk_mem_zipIdx_iff_getElem?.1 hf).symm.trans hg
    rfl
  have hmem := Bindings.mem_of_get? hd
  rw [ofSources_types] at hmem
  obtain ⟨⟨key, origin⟩, ho, he⟩ := List.mem_map.1 hmem
  have ho := List.mem_mergeSort.1 ho
  cases he
  refine ⟨?_, ?_⟩
  · rw [descriptorNamed?_qualified hd]
    exact (Bindings.get?_isSome _ _).2 (List.mem_map_of_mem ho)
  · cases origin with
    | compiled cls => cases ha
    | declared source ns cls =>
      cases ha
      exact hplaced _ ho _ _ _ rfl

/-- The notes of a type that a method of the target of a request writes. -/
def typeNotes (c : Compilation) (r : MapRequest) (t : Source.TypeExpr) : List Problem :=
  (c.resolve r.declared.source r.target.typeParams t).notes

/-- The final construction of an accepted method is of the target, whose name is known. -/
theorem finalType_notes {r : MapRequest} (hr : r ∈ (ofSources files compiled).discover.value)
    {type : Source.TypeExpr} (ht : r.target.isTypeOf ((ofSources files compiled).resolve
      r.declared.source r.target.typeParams type).value = true) :
    ∀ n ∈ (ofSources files compiled).typeNotes r type,
      (∃ t ∈ type.args, n ∈ (ofSources files compiled).typeNotes r t) ∨
        ∃ expected, n.fault = .typeArgumentCount r.target.qualified expected type.args.length := by
  have hrequested := discover_requested _ r hr
  obtain ⟨name, hname⟩ := hrequested.target
  obtain ⟨hknown, hspace⟩ := declared_known hname hrequested.declared
  exact Inventory.resolve_notes_of_key _ _ _ hknown hspace (eq_of_beq ht).symm

theorem typeNotes_args (c : Compilation) (r : MapRequest) {type t : Source.TypeExpr}
    (ht : t ∈ type.args) {n : Problem} (hn : n ∈ c.typeNotes r t) : n ∈ c.typeNotes r type := by
  rw [typeNotes, Inventory.resolve_eq, Noted.bind_notes, List.mem_append]
  exact .inl ((Inventory.mem_resolveAll_notes ..).2 ⟨t, ht, hn⟩)

end Compilation

/-! ### Plans of a pass -/

/-- Notes of resolutions are errors, so a pass with code has reported none. -/
theorem unreported_of_code {inputs : List Input} {compiled : List CompiledType}
    {options : EmitOptions} {result : PassResult} (h : compile inputs compiled options = .ok result)
    {text : String} (hcode : result.code = some text) {inv : Inventory} {place : Nat}
    {generics : List String} {t : Source.TypeExpr} {n : Problem}
    (hn : n ∈ (inv.resolve place generics t).notes) (source : Nat) :
    ⟨source, n⟩ ∉ result.problems := by
  obtain ⟨files, -, -, hclean, -, -⟩ := passed_of_code h hcode
  intro hmem
  have herror := inv.resolve_notes_isError place generics t n hn
  exact List.any_eq_false.1 hclean _ hmem herror

/-- A pass has code only if every type is resolved that a member of a class writes. -/
theorem memberTypes_resolved {inputs : List Input} {compiled : List CompiledType}
    {options : EmitOptions} {result : PassResult} (h : compile inputs compiled options = .ok result)
    {text : String} (hcode : result.code = some text) : ∃ files, readSources inputs = .ok files ∧
      ∀ name source ns cls,
        (name, .declared source ns cls) ∈ (Compilation.ofSources files compiled).origins →
        ∀ t ∈ cls.memberTypes, ((Compilation.ofSources files compiled).resolve source
          cls.typeParams t).notes = [] := by
  obtain ⟨files, hread, hproblems, -, -, -⟩ := passed_of_code h hcode
  refine ⟨files, hread, fun name source ns cls ho t ht => ?_⟩
  refine List.eq_nil_iff_forall_not_mem.2 fun n hn => unreported_of_code h hcode hn source ?_
  rw [hproblems]
  exact List.mem_append_left _ (Compilation.memberTypes_reported ho ht n hn)

/-- A factory with parameters, variables or residuals that is lowered without a note has a plan. -/
theorem Mapping.factoryPlan_mem (m : Mapping) (c : Compilation) {f : Factory}
    (hf : f ∈ m.factories) (hd : f.isDegenerate = false) (hn : (m.lower c f).notes = []) :
    m.factoryPlan c f ∈ (m.plan c).value.factories := by
  obtain ⟨before, after, hfactories⟩ := List.append_of_mem hf
  show _ ∈ (m.planFactories c none m.factories).value.2
  rw [hfactories, planFactories_append, Noted.bind_value, Noted.bind_value, planFactories_cons]
  refine List.mem_append_right _ (List.mem_append_left _ ?_)
  rw [planStep.eq_def, if_neg (by simp [hd]), Noted.unnoted, hn]
  exact List.mem_cons_self

/-- What a pass makes of the types in the body of an accepted method, whose final construction
is of `type`. -/
structure Compilation.TypesWritten (c : Compilation) (problems : List SourceProblem)
    (r : MapRequest) (f : Factory) (type : Source.TypeExpr) : Prop where
  final : f.method.finalType? = some type
  /-- The name of the final construction is known. -/
  known : ∀ n ∈ c.typeNotes r type, (∃ t ∈ type.args, n ∈ c.typeNotes r t) ∨
    ∃ expected, n.fault = .typeArgumentCount r.target.qualified expected type.args.length
  /-- No note of a type in a body is reported. -/
  lost : ∀ t ∈ f.method.bodyTypes, ∀ n ∈ c.typeNotes r t, ⟨r.declared.source, n⟩ ∉ problems
  /-- So every unresolved name is reported exactly if the unchecked types have none. -/
  reported_iff : (∀ t ∈ f.method.bodyTypes, ∀ n ∈ c.typeNotes r t, n.fault.isUnresolved = true →
      ⟨r.declared.source, n⟩ ∈ problems) ↔
    ∀ t ∈ f.method.uncheckedTypes, ∀ n ∈ c.typeNotes r t, n.fault.isUnresolved = false
  /-- What written types refer to is no matter, as long as the final construction is of the target:
  the method is accepted, and lowered as before, for a plan of its own or the default projection. -/
  independent (d : Compilation)
    (hd : r.target.isTypeOf (d.resolve r.declared.source r.target.typeParams type).value = true) :
    ∃ g, Factory.ofMethod d r.source r.target r.declared f.method = .ok g ∧ f.Alike g ∧
      g.isDegenerate = f.isDegenerate ∧ ∀ m : Mapping,
        (m.lower d g).notes = (m.lower c f).notes ∧
        (m.degenerateStage d g).notes = (m.degenerateStage c f).notes

/-- In a pass with code nothing is reported of the types in the body of an accepted method, and
of these types only the name of the final construction has to be known. -/
theorem writtenTypes_reported_iff {inputs : List Input} {compiled : List CompiledType}
    {options : EmitOptions} {result : PassResult} (h : compile inputs compiled options = .ok result)
    {text : String} (hcode : result.code = some text) {u : MapUnit} (hu : u ∈ result.units)
    {f : Factory} (hf : f ∈ u.mapping.factories) :
    ∃ files, readSources inputs = .ok files ∧
      ∃ r ∈ (Compilation.ofSources files compiled).discover.value,
        u = ((Compilation.ofSources files compiled).unit r.source r.target r.declared).value ∧
        ∃ type, (Compilation.ofSources files compiled).TypesWritten result.problems r f type := by
  obtain ⟨files, hread, r, hr, rfl⟩ := unit_of_compile h hu
  obtain ⟨m, -, hm⟩ := Mapping.factory_of_build _ hf
  cases (Factory.ofMethod_describes hm).method
  obtain ⟨before, type, args, hsplit, hbuilt⟩ := Factory.finalType_of_ofMethod hm
  have hknown := Compilation.finalType_notes hr hbuilt
  have hlost (t : Source.TypeExpr) : ∀ n ∈ (Compilation.ofSources files compiled).typeNotes r t,
      ⟨r.declared.source, n⟩ ∉ result.problems := fun n hn => unreported_of_code h hcode hn _
  refine ⟨files, hread, r, hr, rfl, type, by rw [Method.finalType?, hsplit]; rfl, hknown,
    fun t _ => hlost t, ⟨fun hall t ht n hn => ?_, fun hall t ht n hn hunresolved => ?_⟩,
    fun d hd => ?_⟩
  · refine Bool.eq_false_iff.2 fun hunresolved => ?_
    rcases Method.mem_uncheckedTypes hsplit ht with ht | ht
    · have htype : type ∈ f.method.bodyTypes := by rw [Method.bodyTypes_eq hsplit]; simp
      have hn := Compilation.typeNotes_args _ r ht hn
      exact hlost type n hn (hall type htype n hn hunresolved)
    · exact hlost t n hn (hall t ht n hn hunresolved)
  · have hnone (t : Source.TypeExpr) (ht : t ∈ f.method.uncheckedTypes)
        (hn : n ∈ (Compilation.ofSources files compiled).typeNotes r t) : False := by
      rw [hall t ht n hn] at hunresolved
      cases hunresolved
    rcases Method.mem_bodyTypes hsplit ht with rfl | ht
    · rcases hknown n hn with ⟨a, ha, hn⟩ | ⟨expected, hfault⟩
      · exact (hnone a (by simp [Method.uncheckedTypes, hsplit, ha]) hn).elim
      · rw [hfault] at hunresolved
        cases hunresolved
    · exact (hnone t ht hn).elim
  · obtain ⟨g, hg, halike⟩ := Factory.ofMethod_alike d hm fun _ _ _ hs => by
      rw [hsplit] at hs
      cases hs
      exact hd
    exact ⟨g, hg, halike, halike.isDegenerate, fun m =>
      ⟨m.lower_alike _ d halike, m.degenerateStage_alike _ d halike⟩⟩

/-! ### A body with an unknown type -/

namespace Sample

def goneType : Source.TypeExpr := .named ⟨81, 85⟩ ["Gone"]

/-- The factory whose local is of a type that there is not. -/
def goneFactory : Factory where
  method := ⟨⟨"m", "T"⟩, "map", none, overloadParameters 46, some goneBody, ⟨46, 104⟩⟩
  sourceParam := "u"
  parameters := (overloadParameters 46).tail
  vars := []
  initializers := []
  residuals := [.letIn ⟨74, 85⟩ [⟨⟨"l", ⟨78, 79⟩⟩, some goneType, none⟩]]
  residualLocals := [("l", .mk "" "Gone" [])]

theorem gone_factory : goneFactory ∈ overloadsUnit.mapping.factories := by
  have hfirst : overloadsUnit.mapping.factories.head? = some goneFactory := rfl
  exact List.mem_of_head? hfirst

theorem gone_planned :
    overloadsUnit.mapping.factoryPlan overloadsPass goneFactory ∈ overloadsUnit.plan.factories :=
  Mapping.factoryPlan_mem _ _ gone_factory rfl rfl

end Sample

theorem writtenTypes_reported_iff_gone : ∃ result text,
    compile Sample.overloads [Sample.twinType "a"] .default = .ok result ∧
      result.code = some text ∧ Sample.overloadsUnit ∈ result.units ∧
      Sample.goneFactory ∈ Sample.overloadsUnit.mapping.factories ∧
      ∃ r ∈ Sample.overloadsPass.discover.value, ∃ type,
        Sample.overloadsPass.TypesWritten result.problems r Sample.goneFactory type := by
  obtain ⟨result, text, h, hcode, hunits⟩ := Sample.overloads_compile
  have hu : Sample.overloadsUnit ∈ result.units := by rw [hunits]; exact List.mem_cons_self
  obtain ⟨files, hread, r, hr, -, type, hwritten⟩ :=
    writtenTypes_reported_iff h hcode hu Sample.gone_factory
  cases hread.symm.trans Sample.overloads_read
  rw [Sample.overloads_pass] at hr hwritten
  exact ⟨result, text, h, hcode, hu, Sample.gone_factory, r, hr, type, hwritten⟩

/-- A pass with code, and a factory in a plan of it that writes an unknown type, which nothing
reports. -/
theorem unknownType_unreported : ∃ result text files,
    compile Sample.overloads [Sample.twinType "a"] .default = .ok result ∧
      result.code = some text ∧ readSources Sample.overloads = .ok files ∧
      ∃ u ∈ result.units, ∃ f ∈ u.mapping.factories,
        u.mapping.factoryPlan (Compilation.ofSources files [Sample.twinType "a"]) f ∈
          u.plan.factories ∧
        ∃ t ∈ f.method.bodyTypes, ∃ n ∈ ((Compilation.ofSources files [Sample.twinType "a"]).resolve
            u.mapping.declared.source [] t).notes,
          n.fault = .unknownType "Gone" ∧ ∀ source, ⟨source, n⟩ ∉ result.problems := by
  obtain ⟨result, text, h, hcode, hunits⟩ := Sample.overloads_compile
  have hu : Sample.overloadsUnit ∈ result.units := by rw [hunits]; exact List.mem_cons_self
  have hbody : Sample.goneFactory.method.bodyTypes = [Sample.goneType, .named ⟨99, 100⟩ ["T"]] := rfl
  have hnotes : (Sample.overloadsPass.resolve 0 [] Sample.goneType).notes =
      [⟨.unknownType "Gone", ⟨81, 85⟩⟩] := by decide +kernel
  have hn : ⟨.unknownType "Gone", ⟨81, 85⟩⟩ ∈ (Sample.overloadsPass.resolve 0 [] Sample.goneType).notes :=
    hnotes ▸ List.mem_cons_self
  refine ⟨result, text, _, h, hcode, Sample.overloads_read, _, hu, _, Sample.gone_factory, ?_,
    Sample.goneType, by rw [hbody]; exact List.mem_cons_self, _, ?_, rfl, unreported_of_code h hcode hn⟩
  · rw [Sample.overloads_pass]
    exact Sample.gone_planned
  · rw [Sample.overloads_pass]
    exact hn

end StagedMapping
