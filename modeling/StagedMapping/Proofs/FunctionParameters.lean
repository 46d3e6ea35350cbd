import StagedMapping.Proofs.KnownNames
import StagedMapping.Proofs.Overloads

/-! The parameters of emitted functions. Every function of a factory takes the parameters of the
factory, and those that map take what they map before them, under a name of their own. A parameter
of such a name is renamed, whatever the others are called. So the parameters of a function have
distinct names exactly if no factory parameter is called what another is renamed to
(`parameters_apart_iff`). -/
namespace StagedMapping
open Generated

namespace Generated

/-! ### Names of parameters -/

def Function.paramNames (f : Function) : List String := f.params.map (·.1)

/-- The names that functions have for what they map. -/
def receivers : List String := ["source", "query"]

/-- There is a parameter of the name of a receiver, and one of the name that it is given instead. -/
def Clashing (names : List String) : Prop := ∃ r ∈ receivers, r ∈ names ∧ r ++ "_arg" ∈ names

instance (names : List String) : Decidable (Clashing names) :=
  inferInstanceAs (Decidable (∃ r ∈ receivers, _))

theorem paramName_receiver {name : String} (h : name ∈ receivers) :
    paramName name = .ok (name ++ "_arg") := by
  unfold paramName
  exact if_pos (by simpa [receivers] using h)

theorem paramName_other {name w : String} (h : name ∉ receivers) :
    paramName name = .ok w ↔ identifier? name = some w := by
  unfold paramName
  rw [if_neg (by simpa [receivers] using h), ModuleTree.identifier_eq_ok]

/-- The names that receivers are given instead are names as they are. -/
theorem paramName_renamed {r : String} (h : r ∈ receivers) :
    paramName (r ++ "_arg") = .ok (r ++ "_arg") := by
  have hplain : ∀ r ∈ receivers, r ++ "_arg" ∉ receivers ∧
      identifier? (r ++ "_arg") = some (r ++ "_arg") := by decide +kernel
  exact (paramName_other (hplain r h).1).2 (hplain r h).2

theorem raw_notMem {name : String} {names : List String} (h : ∀ n ∈ names, Name.IsPath n) :
    "r#" ++ name ∉ names := fun hmem => by
  have hpath := h _ hmem
  cases hpath '#' (by simp)

theorem receivers_isPath : ∀ r ∈ receivers, Name.IsPath r := by decide

/-- The name of a parameter is not that of a receiver. -/
theorem paramName_notMem {name w : String} (h : Name.IsPath name) (hw : paramName name = .ok w) :
    w ∉ receivers := by
  by_cases hr : name ∈ receivers
  · rw [paramName_receiver hr] at hw
    cases hw
    have hrenamed : ∀ r ∈ receivers, r ++ "_arg" ∉ receivers := by decide
    exact hrenamed name hr
  · rcases identifier?_path h ((paramName_other hr).1 hw) with rfl | rfl
    · exact hr
    · exact raw_notMem receivers_isPath

/-- A parameter has the name of a renamed one just if it has that name itself. -/
theorem eq_of_paramName_receiver {r name : String} (hr : r ∈ receivers) (h : Name.IsPath name)
    (ho : name ∉ receivers) (hw : paramName name = .ok (r ++ "_arg")) : name = r ++ "_arg" := by
  have hpath : ∀ n ∈ receivers.map (· ++ "_arg"), Name.IsPath n := by decide
  rcases identifier?_path h ((paramName_other ho).1 hw) with he | he
  · exact he.symm
  · exact absurd (List.mem_map_of_mem hr) (he ▸ raw_notMem hpath)

/-- Names are told apart after the renaming unless they clash. -/
theorem paramName_inj {names : List String} (hpath : ∀ n ∈ names, Name.IsPath n)
    (hc : ¬ Clashing names) {a b w : String} (ha : a ∈ names) (hb : b ∈ names)
    (hwa : paramName a = .ok w) (hwb : paramName b = .ok w) : a = b := by
  by_cases har : a ∈ receivers <;> by_cases hbr : b ∈ receivers
  · rw [paramName_receiver har] at hwa
    rw [paramName_receiver hbr, ← hwa] at hwb
    exact ((String.append_left_inj _).1 (Except.ok.inj hwb)).symm
  · rw [paramName_receiver har] at hwa
    have he := eq_of_paramName_receiver har (hpath b hb) hbr (hwa ▸ hwb)
    exact absurd ⟨a, har, ha, he ▸ hb⟩ hc
  · rw [paramName_receiver hbr] at hwb
    have he := eq_of_paramName_receiver hbr (hpath a ha) har (hwb ▸ hwa)
    exact absurd ⟨b, hbr, hb, he ▸ ha⟩ hc
  · exact identifier?_inj (hpath a ha) (hpath b hb) ((paramName_other har).1 hwa)
      ((paramName_other hbr).1 hwb)

/-- Different names are different after the renaming exactly if they do not clash. -/
theorem paramNames_nodup_iff {names words : List String} (h : names.mapM paramName = .ok words)
    (hpath : ∀ n ∈ names, Name.IsPath n) (hn : names.Nodup) : words.Nodup ↔ ¬ Clashing names := by
  have hmap := mapM_eq_ok_iff.1 h
  constructor
  · rintro hwords ⟨r, hr, hmem, hrenamed⟩
    have hnodup : (names.map paramName).Nodup := by
      rw [hmap]
      exact hwords.map fun _ _ => Except.ok.inj
    have he := List.inj_on_of_nodup_map hnodup hmem hrenamed
      ((paramName_receiver hr).trans (paramName_renamed hr).symm)
    have hne : ∀ r ∈ receivers, r ≠ r ++ "_arg" := by decide
    exact hne r hr he
  · intro hc
    have hnodup : (names.map paramName).Nodup := hn.map_on fun a ha b hb he => by
      obtain ⟨w, -, hw⟩ := exists_mem_of_mapM_eq_ok h ha
      exact paramName_inj hpath hc ha hb hw (he ▸ hw)
    rw [hmap] at hnodup
    exact hnodup.of_map

/-! ### Functions of factories -/

/-- The functions of a factory with their names, and the names of their parameters: those of the
factory, after what is mapped. -/
structure FunctionsOf (u : MapUnit) (f : FactoryPlan × Factory) (functions : List Function) :
    Prop where
  names : functions.map (·.name) = surfaceNames u.target f.1.digest
  params : ∃ words, (f.2.parameters.map (·.name)).mapM paramName = .ok words ∧
    functions.map (·.paramNames) =
      [words, "source" :: words, "source" :: words, "query" :: words, "source" :: words]

/-- The functions of a factory have distinct parameters exactly if the names do not clash. -/
theorem FunctionsOf.nodup_iff {u : MapUnit} {f : FactoryPlan × Factory} {functions : List Function}
    (h : FunctionsOf u f functions) (hpath : ∀ p ∈ f.2.parameters, Name.IsPath p.name)
    (hn : (f.2.parameters.map (·.name)).Nodup) :
    ∀ g ∈ functions, (g.paramNames.Nodup ↔ ¬ Clashing (f.2.parameters.map (·.name))) := by
  obtain ⟨words, hwords, hparams⟩ := h.params
  have hpath : ∀ n ∈ f.2.parameters.map (·.name), Name.IsPath n := List.forall_mem_map.2 hpath
  have hiff := paramNames_nodup_iff hwords hpath hn
  have hreceiver : ∀ r ∈ receivers, r ∉ words := fun r hr hmem => by
    obtain ⟨name, hname, hw⟩ := exists_of_mapM_eq_ok hwords hmem
    exact paramName_notMem (hpath name hname) hw hr
  intro g hg
  have hmem := hparams ▸ List.mem_map_of_mem (f := Function.paramNames) hg
  simp only [List.mem_cons, List.not_mem_nil, or_false] at hmem
  rcases hmem with he | he | he | he | he
  · rw [he, hiff]
  all_goals
    rw [he, List.nodup_cons, hiff, and_iff_right (hreceiver _ (by decide))]

theorem factoryParams_name {s : Surroundings} {level : Nat} {ps : List Parameter}
    {params : List FactoryParam} (h : ps.mapM (factoryParam s level) = .ok params) :
    (ps.map (·.name)).mapM paramName = .ok (params.map (·.name)) := by
  rw [mapM_eq_ok_iff, List.map_map, List.map_map]
  refine (map_eq_of_mapM_eq_ok h fun p _ q hq => ?_).symm
  obtain ⟨name, hname, hq⟩ := bind_eq_ok.1 hq
  obtain ⟨type, -, hq⟩ := bind_eq_ok.1 hq
  cases hq
  exact hname.symm

theorem forall₂_of_mapM_eq_ok {ε α β : Type} {f : α → Except ε β} {xs : List α} {ys : List β}
    (h : xs.mapM f = .ok ys) : List.Forall₂ (fun x y => f x = .ok y) xs ys := by
  have heq : List.Forall₂ (· = ·) (xs.map f) (ys.map .ok) := by
    rw [mapM_eq_ok_iff.1 h]
    exact List.forall₂_same.2 fun _ _ => rfl
  exact List.forall₂_map_right_iff.1 (List.forall₂_map_left_iff.1 heq)

/-- A container declares the functions of its factories, factory by factory, after those that
every one has. -/
theorem mapperItem_functions {s : Surroundings} {u : MapUnit} {shared : Bool}
    {item : Generated.Item} (h : mapperItem s u shared = .ok item) :
    ∃ common own, item.Declares (common ++ own.flatten) ∧
      List.Forall₂ (FunctionsOf u) (emittedFactories u) own := by
  obtain ⟨source, target, plan, base, factories, -, -, hfactories, -, -, hcode⟩ :=
    mapperItem_eq_ok h
  have hown := forall₂_of_mapM_eq_ok hfactories
  refine ⟨_, factories, hcode, hown.imp fun f functions hmade => ?_⟩
  obtain ⟨params, hparams, hmade⟩ := bind_eq_ok.1 hmade
  cases hmade
  have hnames : (params.map (·.declaration)).map (·.1) = params.map (·.name) := by
    rw [List.map_map]
    rfl
  refine ⟨rfl, _, factoryParams_name hparams, ?_⟩
  rw [← hnames]
  rfl

end Generated

/-! ### Functions of a pass -/

/-- A parameter of an emitted factory is named in the sources. -/
theorem emittedFactories_named {inputs : List Input} {compiled : List CompiledType}
    {options : EmitOptions} {result : PassResult} (h : compile inputs compiled options = .ok result)
    {u : MapUnit} (hu : u ∈ result.units) :
    ∀ f ∈ emittedFactories u, ∀ p ∈ f.2.parameters, Name.IsPath p.name := by
  obtain ⟨files, hread, r, hr, rfl⟩ := unit_of_compile h hu
  intro f hf p hp
  obtain ⟨plan, -, hfound⟩ := List.mem_filterMap.1 hf
  obtain ⟨factory, hfactory, rfl⟩ := Option.map_eq_some_iff.1 hfound
  exact (Compilation.parameter_named (read_of_readSources hread) hr factory
    (List.mem_of_find?_eq_some hfactory) p hp).name.toIsWord.isPath

/-- The functions that a pass with code emits for the factories of a mapping, whose parameters
are named in the sources. -/
theorem exists_functions {inputs : List Input} {compiled : List CompiledType}
    {options : EmitOptions} {result : PassResult} {text : String}
    (h : compile inputs compiled options = .ok result) (hcode : result.code = some text)
    {u : MapUnit} (hu : u ∈ result.units) (he : Emission.isEmitted u = true) :
    ∃ s tree, Emits inputs compiled options s result.units tree text ∧
      ∃ m ∈ tree.modules, ∃ item ∈ m.items,
        mapperItem s u (Emission.isShared result.units u) = .ok item ∧
        ∃ common own, item.Declares (common ++ own.flatten) ∧
          List.Forall₂ (fun f functions => (∀ p ∈ f.2.parameters, Name.IsPath p.name) ∧
            FunctionsOf u f functions) (emittedFactories u) own := by
  obtain ⟨s, tree, hemits⟩ := emits_of_compile h hcode
  obtain ⟨m, hm, item, hitem, hmade⟩ := hemits.container hu he
  obtain ⟨common, own, hdeclares, hown⟩ := mapperItem_functions hmade
  exact ⟨s, tree, hemits, m, hm, item, hitem, hmade, common, own, hdeclares,
    (List.forall₂_and_left _ _).2 ⟨emittedFactories_named h hu, hown⟩⟩

/-- A pass with code emits five functions for each factory of a mapping. Where the parameters of
the factory have different names, so do those of each of its functions, unless there is one of the
name of a receiver and one of the name that it is given instead: then those of none have. -/
theorem parameters_apart_iff {inputs : List Input} {compiled : List CompiledType}
    {options : EmitOptions} {result : PassResult} {text : String}
    (h : compile inputs compiled options = .ok result) (hcode : result.code = some text)
    {u : MapUnit} (hu : u ∈ result.units) (he : Emission.isEmitted u = true) :
    ∃ s tree, Emits inputs compiled options s result.units tree text ∧
      ∃ m ∈ tree.modules, ∃ item ∈ m.items,
        mapperItem s u (Emission.isShared result.units u) = .ok item ∧
        ∃ common own, item.Declares (common ++ own.flatten) ∧
          List.Forall₂ (fun f functions => FunctionsOf u f functions ∧
            ((f.2.parameters.map (·.name)).Nodup → ∀ g ∈ functions,
              (g.paramNames.Nodup ↔ ¬ Clashing (f.2.parameters.map (·.name)))))
            (emittedFactories u) own := by
  obtain ⟨s, tree, hemits, m, hm, item, hitem, hmade, common, own, hdeclares, hown⟩ :=
    exists_functions h hcode hu he
  exact ⟨s, tree, hemits, m, hm, item, hitem, hmade, common, own, hdeclares,
    hown.imp fun f functions ⟨hpath, hfunctions⟩ => ⟨hfunctions, hfunctions.nodup_iff hpath⟩⟩

/-! ### A factory with a parameter of the name of a receiver -/

namespace Sample
open Source (Param Statement)

def queryText : String :=
  "namespace m\n@map_from(a::U)\nclass T:\n n: int\n def map(u: a::U, query: int, query_arg: int):\n  return new T(n = query)\n"

/-- A factory with a parameter that is renamed, and another that has the new name. -/
def queryInput : List Input := [⟨"query", queryText⟩]

def queryParams : List Param :=
  [⟨⟨54, 61⟩, "u", .named ⟨57, 61⟩ ["a", "U"], none⟩,
    ⟨⟨63, 73⟩, "query", .named ⟨70, 73⟩ ["int"], none⟩,
    ⟨⟨75, 89⟩, "query_arg", .named ⟨86, 89⟩ ["int"], none⟩]

def queryBody : List Statement :=
  [.ret ⟨94, 117⟩ (some (.construct ⟨101, 117⟩ (.named ⟨105, 106⟩ ["T"])
    [.named ⟨"n", ⟨107, 108⟩⟩ (.ident ⟨111, 116⟩ "query")]))]

def queryClass : Source.Class :=
  ⟨⟨12, 118⟩, [twinDecorator 12 "a"], "T", [],
    [⟨⟨38, 44⟩, .readWrite, "n", .named ⟨41, 44⟩ ["int"]⟩],
    [⟨⟨46, 118⟩, "map", queryParams, none, some queryBody⟩]⟩

def queryFile : SourceFile := ⟨"query", queryText, ⟨[.space ⟨0, 11⟩ ["m"], .cls queryClass]⟩⟩

def queryTarget : Descriptor :=
  ⟨⟨"m", "T"⟩, [], [⟨⟨"m", "T"⟩, "n", .builtin .int, true, true, ⟨38, 44⟩⟩],
    [⟨⟨"m", "T"⟩, "map", none, [⟨"u", .mk "a" "U" [], none, ⟨54, 61⟩⟩,
      ⟨"query", .builtin .int, none, ⟨63, 73⟩⟩, ⟨"query_arg", .builtin .int, none, ⟨75, 89⟩⟩],
      some queryBody, ⟨46, 118⟩⟩],
    some ⟨0, ⟨12, 118⟩⟩⟩

def queryPass : Compilation where
  files := [queryFile]
  origins := [("m::T", .declared 0 "m" queryClass), ("a::U", .compiled (twinType "a"))]
  types := [("a::U", .ofCompiled (twinType "a")), ("m::T", queryTarget)]
  problems := []

def queryUnit : MapUnit :=
  (queryPass.unit (.ofCompiled (twinType "a")) queryTarget ⟨0, ⟨12, 118⟩⟩).value

set_option maxRecDepth 2000 in
theorem query_read : readSources queryInput = .ok [queryFile] :=
  readSources_single rfl (by rw [Source.Module.parse, lex, String.toList_ofList]; cbv)

theorem query_pass : Compilation.ofSources [queryFile] [twinType "a"] = queryPass := by cbv

theorem query_types : Emission.declaredTypes queryPass = [queryTarget] := by cbv

theorem query_placed : ∃ placed,
    Emission.placedItems ⟨queryPass, crate⟩ [queryUnit] = .ok placed ∧
      ModuleTree.Spellable placed ∧
      Emission.rootFits crate (placed.flatMap (·.item.references)) = true := by
  refine Emission.exists_placed ?_
  unfold Emission.placedItems
  rw [query_types, List.mergeSort_singleton]
  decide +kernel

theorem query_compile : ∃ result text,
    compile queryInput [twinType "a"] .default = .ok result ∧ result.code = some text ∧
      result.units = [queryUnit] := by
  obtain ⟨placed, hplaced, hspellable, hfits⟩ := query_placed
  exact exists_compile query_read query_pass rfl rfl crate_read hplaced hspellable
    (.inr (by decide +kernel)) hfits

theorem query_factory : ∃ f, emittedFactories queryUnit = [f] ∧
    f.2.parameters.map (·.name) = ["query", "query_arg"] := by
  have h : (emittedFactories queryUnit).map (·.2.parameters.map (·.name)) =
      [["query", "query_arg"]] := by decide +kernel
  exact List.map_eq_singleton_iff.1 h

end Sample

theorem parameters_apart_iff_query : ∃ result text,
    compile Sample.queryInput [Sample.twinType "a"] .default = .ok result ∧
      result.code = some text ∧ Sample.queryUnit ∈ result.units ∧
      Emission.isEmitted Sample.queryUnit = true ∧
      ∃ s tree, Emits Sample.queryInput [Sample.twinType "a"] .default s result.units tree text ∧
        ∃ m ∈ tree.modules, ∃ item ∈ m.items, ∃ common own, item.Declares (common ++ own.flatten) ∧
          List.Forall₂ (fun f functions => FunctionsOf Sample.queryUnit f functions ∧
            (f.2.parameters.map (·.name)).Nodup ∧
            ∀ g ∈ functions, (g.paramNames.Nodup ↔ ¬ Clashing ["query", "query_arg"]))
            (emittedFactories Sample.queryUnit) own := by
  obtain ⟨result, text, h, hcode, hunits⟩ := Sample.query_compile
  have hu : Sample.queryUnit ∈ result.units := by rw [hunits]; exact List.mem_cons_self
  obtain ⟨s, tree, hemits, m, hm, item, hitem, -, common, own, hdeclares, hown⟩ :=
    parameters_apart_iff h hcode hu rfl
  obtain ⟨f, hf, hnames⟩ := Sample.query_factory
  rw [hf] at hown ⊢
  obtain _ | ⟨⟨hfunctions, hiff⟩, ⟨⟩⟩ := hown
  rw [hnames] at hiff
  refine ⟨result, text, h, hcode, hu, rfl, s, tree, hemits, m, hm, item, hitem, common, _,
    hdeclares, .cons ⟨hfunctions, ?_, hiff (by decide)⟩ .nil⟩
  rw [hnames]
  decide

/-- A factory with different parameters whose functions have two of one name each. -/
theorem parameters_repeated : ∃ result text,
    compile Sample.queryInput [Sample.twinType "a"] .default = .ok result ∧
      result.code = some text ∧ ∃ u ∈ result.units, Emission.isEmitted u = true ∧
        ∃ s tree, Emits Sample.queryInput [Sample.twinType "a"] .default s result.units tree text ∧
          ∃ m ∈ tree.modules, ∃ item ∈ m.items, ∃ common own,
            item.Declares (common ++ own.flatten) ∧
            List.Forall₂ (fun f functions => FunctionsOf u f functions ∧
              (f.2.parameters.map (·.name)).Nodup ∧ ∀ g ∈ functions, ¬ g.paramNames.Nodup)
              (emittedFactories u) own ∧ own ≠ [] := by
  obtain ⟨result, text, h, hcode, hunits⟩ := Sample.query_compile
  have hu : Sample.queryUnit ∈ result.units := by rw [hunits]; exact List.mem_cons_self
  obtain ⟨s, tree, hemits, m, hm, item, hitem, -, common, own, hdeclares, hown⟩ :=
    exists_functions h hcode hu rfl
  obtain ⟨f, hf, hnames⟩ := Sample.query_factory
  have hn : (f.2.parameters.map (·.name)).Nodup := by rw [hnames]; decide
  have hclash : Clashing (f.2.parameters.map (·.name)) := by rw [hnames]; decide
  refine ⟨result, text, h, hcode, _, hu, rfl, s, tree, hemits, m, hm, item, hitem, common, own,
    hdeclares, ?_⟩
  rw [hf] at hown ⊢
  obtain _ | ⟨⟨hpath, hfunctions⟩, ⟨⟩⟩ := hown
  refine ⟨.cons ⟨hfunctions, hn, fun g hg hg' => ?_⟩ .nil, List.cons_ne_nil _ _⟩
  exact (hfunctions.nodup_iff hpath hn g hg).1 hg' hclash

end StagedMapping
