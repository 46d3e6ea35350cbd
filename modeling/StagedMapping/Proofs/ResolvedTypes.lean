import StagedMapping.Proofs.KnownNames
import StagedMapping.Proofs.WrittenTypes

/-! What a type resolves to. The names that sources write are made of words, so that a qualified
name is split where it was joined (`Name.splitQualified_eq`), and the key of a reference is that of
the type it was looked up as. So a written type that resolves without a note is complete: each part
of it is a type parameter, a builtin type or a type of the pass, applied to as many arguments as it
takes (`Compilation.resolve_complete`). With notes or without, its arguments are those written. -/
namespace StagedMapping

/-! ### Qualified names -/

namespace Name

theorem splitLast_plain {cs : List Char} (h : ':' ∉ cs) : splitLast cs = none := by
  induction cs with
  | nil => rfl
  | cons c rest ih =>
    have hrest : splitLast rest = none := ih fun hmem => h (List.mem_cons_of_mem _ hmem)
    unfold splitLast
    split
    · next hsome => simp [hrest] at hsome
    · exact absurd List.mem_cons_self h
    · rfl

theorem splitLast_separated (before : List Char) {after : List Char} (h : ':' ∉ after) :
    splitLast (before ++ ':' :: ':' :: after) = some (before, after) := by
  induction before with
  | nil =>
    have hsecond : splitLast (':' :: after) = none := by
      unfold splitLast
      split
      · next hsome => simp [splitLast_plain h] at hsome
      · exact absurd List.mem_cons_self h
      · rfl
    rw [List.nil_append, splitLast.eq_def]
    dsimp only
    rw [hsecond]
    rfl
  | cons c rest ih =>
    rw [List.cons_append, splitLast.eq_def]
    dsimp only
    rw [ih]

theorem splitQualified_qualify (ns : String) {name : String} (h : ':' ∉ name.toList) :
    splitQualified (qualify ns name) = (ns, name) := by
  unfold splitQualified qualify
  by_cases hns : ns = ""
  · rw [if_pos hns, splitLast_plain h, hns]
  · have htext : (ns ++ "::" ++ name).toList = ns.toList ++ ':' :: ':' :: name.toList := by simp
    rw [if_neg hns, htext, splitLast_separated _ h]
    simp

theorem IsJoined.getLast?_ne {ns : String} (h : IsJoined ns) : ns.toList.getLast? ≠ some ':' := by
  obtain ⟨path, hpath, rfl⟩ := h
  rcases path.eq_nil_or_concat' with rfl | ⟨front, name, rfl⟩
  · decide
  · obtain ⟨hfront, hname⟩ := List.forall_mem_append.1 hpath
    have hword := hname _ List.mem_cons_self
    have hend : (joinPath (front ++ [name])).toList.getLast? = name.toList.getLast? := by
      obtain ⟨c, rest, hchars, -⟩ := hword.start
      rw [joinPath_concat hfront]
      unfold Name.qualify
      split
      · rfl
      · simp [hchars, List.getLast?_append, List.getLast?_cons]
    rw [hend]
    exact fun hlast => hword.colon_notMem (List.mem_of_getLast? hlast)

/-- A path of words is a namespace that is such a path, and a name without colons. -/
theorem IsJoined.parts {q : String} (h : IsJoined q) :
    ∃ ns name, IsJoined ns ∧ ':' ∉ name.toList ∧ q = Name.qualify ns name := by
  obtain ⟨path, hpath, rfl⟩ := h
  rcases path.eq_nil_or_concat' with rfl | ⟨front, name, rfl⟩
  · exact ⟨"", "", ⟨[], List.forall_mem_nil _, rfl⟩, by decide, rfl⟩
  · obtain ⟨hfront, hname⟩ := List.forall_mem_append.1 hpath
    exact ⟨_, name, ⟨front, hfront, rfl⟩, (hname _ List.mem_cons_self).colon_notMem,
      joinPath_concat hfront name⟩

theorem IsJoined.qualify_splitQualified {q : String} (h : IsJoined q) :
    Name.qualify (splitQualified q).1 (splitQualified q).2 = q := by
  obtain ⟨ns, name, -, hname, rfl⟩ := h.parts
  rw [splitQualified_qualify ns hname]

/-- The text of a qualified name tells where it was joined. -/
theorem append_separator_inj {ns name front last : List Char} (hname : ¬ "::".toList <:+: name)
    (hfront : front.getLast? ≠ some ':') (hlast : ':' ∉ last)
    (h : ns ++ ':' :: ':' :: name = front ++ ':' :: ':' :: last) : ns = front ∧ name = last := by
  rcases List.append_eq_append_iff.1 h with ⟨between, rfl, hrest⟩ | ⟨between, rfl, hrest⟩
  · match between with
    | [] => simpa using hrest
    | [c] =>
      -- the namespace would end with the first colon of the name
      obtain ⟨rfl, -⟩ := List.cons.inj hrest
      simp at hfront
    | c :: d :: more =>
      obtain ⟨-, hrest⟩ := List.cons.inj hrest
      obtain ⟨-, hrest⟩ := List.cons.inj hrest
      exact absurd ⟨more, last, by simp [hrest]⟩ hname
  · match between with
    | [] => simpa [eq_comm] using hrest
    | [c] =>
      obtain ⟨-, hrest⟩ := List.cons.inj hrest
      simp [(List.cons.inj hrest).2] at hlast
    | c :: d :: more =>
      obtain ⟨-, hrest⟩ := List.cons.inj hrest
      obtain ⟨-, hrest⟩ := List.cons.inj hrest
      simp [hrest] at hlast

/-- A path of words that is the qualified name of a type is split into its namespace and its
name. -/
theorem splitQualified_eq {ns name : String} (hname : ¬ "::".toList <:+: name.toList)
    (h : IsJoined (qualify ns name)) : splitQualified (qualify ns name) = (ns, name) := by
  obtain ⟨front, last, hfront, hlast, hq⟩ := h.parts
  rw [hq, splitQualified_qualify front hlast]
  unfold Name.qualify at hq
  by_cases hns : ns = "" <;> by_cases hempty : front = ""
  · rw [if_pos hns, if_pos hempty] at hq
    rw [hns, hempty, hq]
  · rw [if_pos hns, if_neg hempty] at hq
    exact absurd ⟨front.toList, last.toList, by simp [hq]⟩ hname
  · rw [if_neg hns, if_pos hempty] at hq
    exact absurd (hq ▸ by simp) hlast
  · rw [if_neg hns, if_neg hempty] at hq
    have htext := congrArg String.toList hq
    simp only [String.toList_append, List.append_assoc] at htext
    obtain ⟨hfirst, hsecond⟩ := append_separator_inj hname hfront.getLast?_ne hlast htext
    rw [String.toList_inj.1 hfirst, String.toList_inj.1 hsecond]

end Name

theorem TypeRef.qualified_ofQualified {q : String} (h : Name.IsJoined q) (args : List TypeRef) :
    ((TypeRef.ofQualified q).withArgs args).qualified = q :=
  h.qualify_splitQualified

/-! ### What resolution finds -/

namespace Inventory
variable {inv : Inventory} {source : Nat} {generics : List String}

theorem known_isSome {name : String} {span : Span} (h : (inv.known name span).notes = []) :
    (inv.known name span).value.isSome = true := by
  unfold known at h ⊢
  split
  · rfl
  · simp_all

theorem lookupIn_isSome {context : Context} {name : String} {span : Span}
    (h : (inv.lookupIn context name span).notes = []) :
    (inv.lookupIn context name span).value.isSome = true := by
  unfold lookupIn at h ⊢
  dsimp only at h ⊢
  split
  · rfl
  · rename_i hlocal
    rw [if_neg hlocal] at h
    split
    · next target htarget =>
      rw [htarget] at h
      exact known_isSome h
    · next hnone =>
      rw [hnone] at h
      dsimp only at h
      split at h <;> simp_all

theorem lookup_single (name : String) (span : Span) :
    inv.lookup source generics [name] span =
      if generics.contains name then pure (some (.ofName name))
      else
        match BuiltinType.ofSpelling? name with
        | some b => pure (some (.builtin b))
        | none =>
          match inv.context? source with
          | none => pure none
          | some context => inv.lookupIn context name span := rfl

/-- In a source of the pass, every path that is not noted has a meaning. -/
theorem lookup_isSome {path : List String} {span : Span} (hne : path ≠ [])
    (hsource : source < inv.files.length) (h : (inv.lookup source generics path span).notes = []) :
    (inv.lookup source generics path span).value.isSome = true := by
  match path, hne with
  | [name], _ =>
    rw [lookup_single] at h ⊢
    split
    · rfl
    next hgeneric =>
    rw [if_neg hgeneric] at h
    split
    · rfl
    next hbuiltin =>
    rw [hbuiltin] at h
    have hcontext : inv.context? source = some inv.files[source].content.context := by
      rw [context?, List.getElem?_eq_getElem hsource, Option.map_some]
    rw [hcontext] at h ⊢
    exact lookupIn_isSome h
  | _ :: _ :: _, _ => exact known_isSome h

/-- A type that resolves without a note is one that was found, applied to its arguments. -/
theorem resolve_found (hread : inv.Read) (hsource : source < inv.files.length)
    {t : Source.TypeExpr} (ht : t.Proper) (h : (inv.resolve source generics t).notes = []) :
    let args := inv.resolveAll source generics t.args
    args.notes = [] ∧ ∃ found, inv.Found generics found ∧
      (inv.apply generics found args.value t.span).notes = [] ∧
      (inv.resolve source generics t).value = found.withArgs args.value := by
  intro args
  have hpath : t.path ≠ [] ∧ ∀ name ∈ t.path, Lexer.IsName name := by
    cases ht with
    | named hne hpath => exact ⟨hne, hpath⟩
    | applied hne hpath => exact ⟨hne, hpath⟩
  rw [resolve_eq, Noted.bind_notes, List.append_eq_nil_iff] at h
  obtain ⟨hargs, hnotes⟩ := h
  rw [resolvePath, Noted.bind_notes, List.append_eq_nil_iff] at hnotes
  obtain ⟨found, hfound⟩ := Option.isSome_iff_exists.1 (lookup_isSome hpath.1 hsource hnotes.1)
  have happly := hnotes.2
  rw [hfound] at happly
  refine ⟨hargs, found, lookup_found hread hpath.2 hfound, happly, ?_⟩
  rw [resolve_eq, Noted.bind_value, resolvePath_value, hfound]

mutual

/-- What found types keep when they are applied holds of all types that resolve without a note. -/
theorem resolve_closed {P : TypeRef → Prop} (hread : inv.Read) (hsource : source < inv.files.length)
    (hP : ∀ found args span, inv.Found generics found →
      (inv.apply generics found args span).notes = [] → (∀ a ∈ args, P a) →
      P (found.withArgs args)) : (t : Source.TypeExpr) → t.Proper →
    (inv.resolve source generics t).notes = [] → P (inv.resolve source generics t).value
  | .named span path, ht, h => by
    obtain ⟨-, found, hfound, happly, hvalue⟩ := resolve_found hread hsource ht h
    rw [hvalue]
    exact hP found _ _ hfound happly (List.forall_mem_nil _)
  | .applied span path args, ht, h => by
    obtain ⟨hargs, found, hfound, happly, hvalue⟩ := resolve_found hread hsource ht h
    rw [hvalue]
    refine hP found _ _ hfound happly ?_
    cases ht with
    | applied _ _ _ hproper => exact resolveAll_closed hread hsource hP args hproper hargs

theorem resolveAll_closed {P : TypeRef → Prop} (hread : inv.Read)
    (hsource : source < inv.files.length)
    (hP : ∀ found args span, inv.Found generics found →
      (inv.apply generics found args span).notes = [] → (∀ a ∈ args, P a) →
      P (found.withArgs args)) : (ts : List Source.TypeExpr) → (∀ t ∈ ts, t.Proper) →
    (inv.resolveAll source generics ts).notes = [] →
    ∀ a ∈ (inv.resolveAll source generics ts).value, P a
  | [], _, _ => List.forall_mem_nil _
  | t :: rest, ht, h => by
    obtain ⟨hfirst, hrest⟩ := List.forall_mem_cons.1 ht
    simp only [resolveAll, Noted.bind_notes, Noted.pure_notes, List.append_nil,
      List.append_eq_nil_iff] at h
    rw [resolveAll, Noted.bind_value]
    exact List.forall_mem_cons.2 ⟨resolve_closed hread hsource hP t hfirst h.1,
      resolveAll_closed hread hsource hP rest hrest h.2⟩

end

end Inventory

/-! ### Complete types -/

/-- Each part of a reference is a type parameter in scope, a builtin type or a type that a pass
has a descriptor of, and has as many arguments as it takes. -/
inductive TypeRef.Complete (c : Compilation) (generics : List String) : TypeRef → Prop where
  | parameter {name : String} (h : name ∈ generics) : Complete c generics (.mk "" name [])
  | builtin {ns name : String} {args : List TypeRef} {b : BuiltinType}
    (hb : (TypeRef.mk ns name args).builtin? = some b) (hlength : args.length = b.arity)
    (hargs : ∀ a ∈ args, Complete c generics a) : Complete c generics (.mk ns name args)
  | known {ns name : String} {args : List TypeRef} {d : Descriptor}
    (hd : c.descriptor? (.mk ns name args) = some d) (hkey : d.key = ⟨ns, name⟩)
    (hlength : d.typeParams.length = args.length) (hargs : ∀ a ∈ args, Complete c generics a) :
    Complete c generics (.mk ns name args)

/-- A reference has the arguments of a written type, at every depth. -/
inductive TypeRef.ShapedAs : TypeRef → Source.TypeExpr → Prop where
  | mk {ns name : String} {args : List TypeRef} {t : Source.TypeExpr}
    (hlength : args.length = t.args.length)
    (hargs : ∀ p ∈ args.zip t.args, ShapedAs p.1 p.2) : ShapedAs (.mk ns name args) t

namespace Inventory

theorem describe_typeParams (inv : Inventory) (o : Origin) :
    (inv.describe o).value.typeParams = o.typeParams := by
  cases o <;> rfl

theorem apply_arity {inv : Inventory} {generics : List String} {t : TypeRef} {args : List TypeRef}
    {span : Span} (h : (inv.apply generics t args span).notes = []) :
    ∀ n, inv.arity? generics t = some n → n = args.length := by
  intro n hn
  unfold apply at h
  rw [hn] at h
  dsimp only at h
  split at h
  · assumption
  · cases h

end Inventory

namespace Compilation
variable {files : List SourceFile} {compiled : List CompiledType}
  (hread : ∀ f ∈ files, ∃ text, Source.Module.parse text = .ok f.content)

/-- A name that a pass knows has a descriptor. -/
theorem descriptorNamed?_of_contains {q : String}
    (h : (ofSources files compiled).contains q = true) :
    ∃ o, (ofSources files compiled).origin? q = some o ∧
      (ofSources files compiled).descriptorNamed? q =
        some ((ofSources files compiled).describe o).value := by
  obtain ⟨o, ho⟩ := Option.isSome_iff_exists.1 h
  have hq := descriptorNamed?_eq files compiled q
  exact ⟨o, ho, hq.trans (congrArg _ ho)⟩

include hread

/-- Where compiled types have short names, so do all. -/
theorem descriptor_short (hnames : ∀ t ∈ compiled, ¬ "::".toList <:+: t.name.toList) {q : String}
    {d : Descriptor} (hd : (ofSources files compiled).descriptorNamed? q = some d) :
    ¬ "::".toList <:+: d.key.name.toList := by
  have horigins : ∀ o ∈ (Inventory.ofSources files compiled).value.origins,
      ∀ inv : Inventory, ¬ "::".toList <:+: (inv.describe o.2).value.key.name.toList := by
    refine Inventory.forall_ofSources (fun e he inv hshort => ?_) fun t ht inv => hnames t ht
    obtain ⟨f, hf, he⟩ := List.mem_flatMap.1 he
    obtain ⟨cls, hcls, rfl⟩ := List.mem_map.1 he
    obtain ⟨text, hparse⟩ := hread f.1 (List.fst_mem_of_mem_zipIdx hf)
    have hname := (Source.Module.classes_named hparse cls hcls).name.toIsWord
    exact hname.colon_notMem (hshort.mem (by decide))
  have hmem := Bindings.mem_of_get? hd
  rw [ofSources_types] at hmem
  obtain ⟨o, ho, he⟩ := List.mem_map.1 hmem
  cases he
  exact horigins o (List.mem_mergeSort.1 ho) _

variable (hnames : ∀ t ∈ compiled, ¬ "::".toList <:+: t.name.toList)
include hnames

theorem descriptor_key {q : String} (hq : Name.IsJoined q) {d : Descriptor}
    (hd : (ofSources files compiled).descriptorNamed? q = some d) :
    d.key = (TypeRef.ofQualified q).key := by
  cases descriptorNamed?_qualified hd
  have hsplit : Name.splitQualified d.qualified = (d.key.ns, d.key.name) :=
    Name.splitQualified_eq (descriptor_short hread hnames hd) hq
  rw [TypeRef.ofQualified, hsplit]
  rfl

/-- What was found is complete if it is applied to complete arguments, as many as it takes. -/
theorem complete_of_found {generics : List String} {found : TypeRef}
    (h : (ofSources files compiled).Found generics found) {args : List TypeRef}
    (harity : ∀ n, (ofSources files compiled).arity? generics found = some n → n = args.length)
    (hargs : ∀ a ∈ args, a.Complete (ofSources files compiled) generics) :
    (found.withArgs args).Complete (ofSources files compiled) generics := by
  unfold Inventory.arity? at harity
  cases hb : found.builtin? with
  | some b =>
    rw [hb] at harity
    exact .builtin hb (harity _ rfl).symm hargs
  | none =>
    rw [hb] at harity
    dsimp only at harity
    by_cases hgeneric : found.ns = "" ∧ generics.contains found.name = true
    · rw [if_pos hgeneric] at harity
      have hnone : args = [] := List.length_eq_zero_iff.1 (harity 0 rfl).symm
      rw [TypeRef.withArgs, hgeneric.1, hnone]
      exact .parameter (List.contains_iff_mem.1 hgeneric.2)
    · rw [if_neg hgeneric] at harity
      cases h with
      | parameter hname hmem => exact absurd ⟨rfl, List.contains_iff_mem.2 hmem⟩ hgeneric
      | builtin b => cases (BuiltinType.ofSpelling?_spelling b).symm.trans hb
      | @known q hq hknown =>
        obtain ⟨o, ho, hd⟩ := descriptorNamed?_of_contains hknown
        have hqualified : (TypeRef.ofQualified q).qualified = q := hq.qualify_splitQualified
        rw [hqualified, ho] at harity
        have hkey := descriptor_key hread hnames hq hd
        refine .known ((congrArg _ hqualified).trans hd) hkey ?_ hargs
        rw [Inventory.describe_typeParams]
        exact harity _ rfl

end Compilation

namespace Inventory
variable (inv : Inventory) (source : Nat) (generics : List String)

theorem resolve_shape (t : Source.TypeExpr) : ∃ ns name,
    (inv.resolve source generics t).value =
      .mk ns name (inv.resolveAll source generics t.args).value := by
  rw [resolve_eq, Noted.bind_value, resolvePath_value]
  split <;> exact ⟨_, _, rfl⟩

mutual

/-- Whatever is noted, the arguments are those written. -/
theorem resolve_shaped : (t : Source.TypeExpr) → (inv.resolve source generics t).value.ShapedAs t
  | .named span path => by
    obtain ⟨ns, name, h⟩ := inv.resolve_shape source generics (.named span path)
    rw [h]
    exact .mk rfl (List.forall_mem_nil _)
  | .applied span path args => by
    obtain ⟨ns, name, h⟩ := inv.resolve_shape source generics (.applied span path args)
    rw [h]
    exact .mk (inv.resolveAll_length source generics args) (resolveAll_shaped args)

theorem resolveAll_shaped : (ts : List Source.TypeExpr) →
    ∀ p ∈ (inv.resolveAll source generics ts).value.zip ts, p.1.ShapedAs p.2
  | [] => List.forall_mem_nil _
  | t :: rest => by
    rw [resolveAll, Noted.bind_value]
    exact List.forall_mem_cons.2 ⟨resolve_shaped t, resolveAll_shaped rest⟩

end

end Inventory

/-- A written type that resolves without a note, in a source of a pass whose compiled types have
short names, is complete; with notes or without, it has the arguments that are written. -/
theorem Compilation.resolve_complete {files : List SourceFile} {compiled : List CompiledType}
    (hread : ∀ f ∈ files, ∃ text, Source.Module.parse text = .ok f.content)
    (hnames : ∀ t ∈ compiled, ¬ "::".toList <:+: t.name.toList) {i : Nat} (hi : i < files.length)
    (generics : List String) {t : Source.TypeExpr} (ht : t.Proper) :
    let c := ofSources files compiled
    ((c.resolve i generics t).notes = [] → (c.resolve i generics t).value.Complete c generics) ∧
      (c.resolve i generics t).value.ShapedAs t :=
  ⟨Inventory.resolve_closed (read_ofSources hread) hi (fun _ _ _ hfound happly hargs =>
    complete_of_found hread hnames hfound (Inventory.apply_arity happly) hargs) t ht,
    Inventory.resolve_shaped _ i generics t⟩

/-! ### A written type of compiled types -/

namespace Sample

/-- A source that renames one imported type, and imports all those of another namespace. -/
def crates : List Input := [⟨"t", "import a::*\nimport b::Box as Crate\n"⟩]

/-- A type with two type parameters. -/
def boxType : CompiledType := ⟨"Box", "b", ["V", "W"], [], []⟩

def crateType : Source.TypeExpr :=
  .applied ⟨0, 17⟩ ["Crate"]
    [.applied ⟨6, 13⟩ ["List"] [.named ⟨11, 12⟩ ["U"]], .named ⟨15, 16⟩ ["K"]]

def boxReference : TypeRef := .mk "b" "Box" [.mk "" "List" [.mk "a" "U" []], .mk "" "K" []]

theorem crateType_proper : crateType.Proper := by
  have hnames : ∀ name ∈ ["Crate", "List", "U", "K"], Lexer.IsName name := by
    intro name h
    simp only [List.mem_cons, List.not_mem_nil, or_false] at h
    rcases h with rfl | rfl | rfl | rfl <;>
      exact ⟨⟨⟨_, _, rfl, rfl⟩, List.all_eq_true.1 rfl⟩, rfl⟩
  have hplain (span : Span) (name : String) (h : name ∈ ["Crate", "List", "U", "K"]) :
      (Source.TypeExpr.named span [name]).Proper :=
    .named (List.cons_ne_nil _ _) (List.forall_mem_singleton.2 (hnames name h))
  have happlied (span : Span) (name : String) (h : name ∈ ["Crate", "List", "U", "K"])
      (first : Source.TypeExpr) (rest : List Source.TypeExpr)
      (hargs : ∀ t ∈ first :: rest, t.Proper) :
      (Source.TypeExpr.applied span [name] (first :: rest)).Proper :=
    .applied (List.cons_ne_nil _ _) (List.forall_mem_singleton.2 (hnames name h))
      (List.cons_ne_nil _ _) hargs
  have hlist := happlied ⟨6, 13⟩ "List" (by decide) _ []
    (List.forall_mem_singleton.2 (hplain ⟨11, 12⟩ "U" (by decide)))
  exact happlied _ "Crate" (by decide) _ _
    (List.forall_mem_cons.2 ⟨hlist, List.forall_mem_singleton.2 (hplain _ "K" (by decide))⟩)

end Sample

theorem Compilation.resolve_complete_crates : ∃ files,
    (∀ f ∈ files, ∃ text, Source.Module.parse text = .ok f.content) ∧
      (∀ t ∈ [Sample.twinType "a", Sample.boxType], ¬ "::".toList <:+: t.name.toList) ∧
      0 < files.length ∧ Sample.crateType.Proper ∧
      let c := ofSources files [Sample.twinType "a", Sample.boxType]
      c.resolve 0 ["K"] Sample.crateType = ⟨Sample.boxReference, []⟩ ∧
        Sample.boxReference.Complete c ["K"] ∧ Sample.boxReference.ShapedAs Sample.crateType := by
  obtain ⟨files, hread, hlength, hresolve⟩ : ∃ files, readSources Sample.crates = .ok files ∧
      0 < files.length ∧ (ofSources files [Sample.twinType "a", Sample.boxType]).resolve 0 ["K"]
        Sample.crateType = ⟨Sample.boxReference, []⟩ := by
    refine ⟨?files, ?hread, ?hlength, ?hresolve⟩
    case hread =>
      refine @readSources_single _ _ _ ?content rfl ?parsed
      case parsed =>
        rw [Source.Module.parse, lex, String.toList_ofList]
        cbv
        rfl
    case hlength => decide
    case hresolve => cbv
  have hread := read_of_readSources hread
  have hnames : ∀ t ∈ [Sample.twinType "a", Sample.boxType], ¬ "::".toList <:+: t.name.toList := by
    decide
  have hcomplete := resolve_complete hread hnames hlength ["K"] Sample.crateType_proper
  dsimp only at hcomplete
  rw [hresolve] at hcomplete
  exact ⟨files, hread, hnames, hlength, Sample.crateType_proper, hresolve, hcomplete.1 rfl,
    hcomplete.2⟩

end StagedMapping
