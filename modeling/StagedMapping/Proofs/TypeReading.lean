import StagedMapping.Proofs.ResolvedTypes
import StagedMapping.TypeRef.Reader

/-! Type references read from texts. What the reader does is a relation, with one case for each way
in which a reference or its arguments may end (`TypeRef.Reads`). Every text has one reading, which
is the reference that `TypeRef.parse` gives, and no character is looked at twice
(`TypeRef.Reads.read`). A reference all of whose names stand for themselves (`TypeRef.Readable`) is
read from its text, whatever mark follows it; so its text reads back (`TypeRef.parse_text`). -/
namespace StagedMapping

/-! ### Texts without blanks -/

namespace Text

theorem trimChars_plain {cs : List Char} (h : ∀ c ∈ cs, isBlank c = false) :
    trimChars cs = cs := by
  have hfront : ∀ ds : List Char, (∀ c ∈ ds, isBlank c = false) → ds.dropWhile isBlank = ds := by
    intro ds hds
    cases ds with
    | nil => rfl
    | cons c rest => rw [List.dropWhile_cons, hds c List.mem_cons_self, if_neg Bool.false_ne_true]
  rw [trimChars, hfront cs h, hfront _ fun c hc => h c (List.mem_reverse.1 hc),
    List.reverse_reverse]

theorem trimChars_blank_cons {c : Char} (h : isBlank c = true) (cs : List Char) :
    trimChars (c :: cs) = trimChars cs := by
  rw [trimChars, List.dropWhile_cons, if_pos h, trimChars]

theorem hasPart_separator (before after : List Char) :
    hasPart "::".toList (before ++ ':' :: ':' :: after) = true := by
  induction before with
  | nil => rfl
  | cons c rest ih => rw [List.cons_append, hasPart, ih, Bool.or_true]

theorem hasPart_separator_plain {cs : List Char} (h : ':' ∉ cs) :
    hasPart "::".toList cs = false := by
  induction cs with
  | nil => rfl
  | cons c rest ih =>
    have hc : ¬ ':' = c := fun he => h (he ▸ List.mem_cons_self)
    have hrest := ih fun hmem => h (List.mem_cons_of_mem _ hmem)
    rw [hasPart, hrest, Bool.or_false]
    show (':' == c && _) = false
    rw [beq_false_of_ne hc, Bool.false_and]

end Text

namespace TypeRef

/-! ### What the reader does -/

/-- The text goes on with a mark, or it is at its end. -/
def AtMark (rest : List Char) : Prop := ∀ c ∈ rest.head?, isBreak c = true

mutual

/-- The reference that a text starts with, and the text after it. A name goes up to the first
bracket or comma; if that is an opening bracket, arguments follow. -/
inductive Reads (owner : String) (params : List String) :
    List Char → TypeRef → List Char → Prop where
  | named {name rest : List Char} (hname : ∀ c ∈ name, isBreak c = false) (hrest : AtMark rest)
    (hplain : ∀ c ∈ rest.head?, c ≠ '[') :
    Reads owner params (name ++ rest) (ofPath owner params (Text.trim (String.ofList name))) rest
  | applied {name inner rest : List Char} {args : List TypeRef}
    (hname : ∀ c ∈ name, isBreak c = false) (hargs : ReadsArgs owner params inner args rest) :
    Reads owner params (name ++ '[' :: inner)
      ((ofPath owner params (Text.trim (String.ofList name))).withArgs args) rest

/-- The arguments after an opening bracket. A comma is followed by another argument; a closing
bracket ends them, and so does whatever else there is, which is left. -/
inductive ReadsArgs (owner : String) (params : List String) :
    List Char → List TypeRef → List Char → Prop where
  | more {cs rest last : List Char} {a : TypeRef} {as : List TypeRef}
    (ha : Reads owner params cs a (',' :: rest)) (has : ReadsArgs owner params rest as last) :
    ReadsArgs owner params cs (a :: as) last
  | closed {cs rest : List Char} {a : TypeRef} (ha : Reads owner params cs a (']' :: rest)) :
    ReadsArgs owner params cs [a] rest
  | unclosed {cs rest : List Char} {a : TypeRef} (ha : Reads owner params cs a rest)
    (hrest : ∀ c ∈ rest.head?, c ≠ ',' ∧ c ≠ ']') : ReadsArgs owner params cs [a] rest

end

section
variable (owner : String) (params : List String) {cs : List Char}

theorem readRef_named (h : ∀ c ∈ (cs.dropWhile fun c => !isBreak c).head?, c ≠ '[') :
    (readRef owner params cs).value =
        ofPath owner params (Text.trim (String.ofList (cs.takeWhile fun c => !isBreak c))) ∧
      (readRef owner params cs).rest = cs.dropWhile fun c => !isBreak c := by
  rw [readRef]
  dsimp only
  split
  · next inner heq => simp [heq] at h
  · simp only [and_self]

theorem readRef_applied {inner : List Char}
    (h : (cs.dropWhile fun c => !isBreak c) = '[' :: inner) :
    (readRef owner params cs).value =
        (ofPath owner params (Text.trim (String.ofList
          (cs.takeWhile fun c => !isBreak c)))).withArgs (readArgs owner params inner).value ∧
      (readRef owner params cs).rest = (readArgs owner params inner).rest := by
  rw [readRef]
  dsimp only
  split
  · next inner' heq =>
    cases h.symm.trans heq
    simp only [and_self]
  · next hne => exact absurd h (hne _)

end

section
variable {owner : String} {params : List String} {cs : List Char}

theorem readArgs_more {rest : List Char} (h : (readRef owner params cs).rest = ',' :: rest) :
    (readArgs owner params cs).value =
        (readRef owner params cs).value :: (readArgs owner params rest).value ∧
      (readArgs owner params cs).rest = (readArgs owner params rest).rest := by
  rw [readArgs]
  dsimp only
  split
  · next rest' heq =>
    cases h.symm.trans heq
    simp only [and_self]
  · next heq => cases h.symm.trans heq
  · next hne _ => exact absurd h (hne _)

theorem readArgs_closed {rest : List Char} (h : (readRef owner params cs).rest = ']' :: rest) :
    (readArgs owner params cs).value = [(readRef owner params cs).value] ∧
      (readArgs owner params cs).rest = rest := by
  rw [readArgs]
  dsimp only
  split
  · next heq => cases h.symm.trans heq
  · next rest' heq =>
    cases h.symm.trans heq
    simp only [and_self]
  · next _ hne => exact absurd h (hne _)

theorem readArgs_unclosed (h : ∀ c ∈ (readRef owner params cs).rest.head?, c ≠ ',' ∧ c ≠ ']') :
    (readArgs owner params cs).value = [(readRef owner params cs).value] ∧
      (readArgs owner params cs).rest = (readRef owner params cs).rest := by
  rw [readArgs]
  dsimp only
  split
  · next heq => simp [heq] at h
  · next heq => simp [heq] at h
  · simp only [and_self]

/-! ### Every text has one reading -/

theorem atMark_cons {c : Char} (h : isBreak c = true) (rest : List Char) : AtMark (c :: rest) :=
  fun _ hd => Option.some.inj hd ▸ h

theorem atMark_dropWhile (cs : List Char) : AtMark (cs.dropWhile fun c => !isBreak c) := by
  intro c hc
  have hne : (cs.dropWhile fun c => !isBreak c) ≠ [] := by
    intro he
    rw [he] at hc
    cases hc
  have hhead := List.head_dropWhile_not (fun c => !isBreak c) hne
  rw [List.head_of_head?_eq_some hc] at hhead
  simpa using hhead

theorem isBreak_takeWhile (cs : List Char) :
    ∀ c ∈ cs.takeWhile fun c => !isBreak c, isBreak c = false := fun c hc => by
  simpa using List.mem_takeWhile_imp hc

/-- What the reader gives is a reading. -/
theorem readRef_reads (owner : String) (params : List String) (cs : List Char) :
    Reads owner params cs (readRef owner params cs).value (readRef owner params cs).rest := by
  refine readRef.induct
    (fun owner params cs =>
      Reads owner params cs (readRef owner params cs).value (readRef owner params cs).rest)
    (fun owner params cs =>
      ReadsArgs owner params cs (readArgs owner params cs).value (readArgs owner params cs).rest)
    ?applied ?named ?more ?closed ?unclosed owner params cs
  case applied =>
    intro owner params cs _ inner heq ih
    obtain ⟨hvalue, hrest⟩ := readRef_applied owner params heq
    have hreads := Reads.applied (isBreak_takeWhile cs) ih
    rwa [← heq, List.takeWhile_append_dropWhile, ← hvalue, ← hrest] at hreads
  case named =>
    intro owner params cs _ hne
    have hplain : ∀ c ∈ (cs.dropWhile fun c => !isBreak c).head?, c ≠ '[' := by
      rintro _ hc rfl
      obtain ⟨rest, heq⟩ := List.head?_eq_some_iff.1 hc
      exact hne rest heq
    obtain ⟨hvalue, hrest⟩ := readRef_named owner params hplain
    have hreads : Reads owner params _ _ _ :=
      .named (isBreak_takeWhile cs) (atMark_dropWhile cs) hplain
    rwa [List.takeWhile_append_dropWhile, ← hvalue, ← hrest] at hreads
  case more =>
    intro owner params cs first _ rest heq hfirst hmore
    obtain ⟨hvalue, hrest⟩ := readArgs_more heq
    rw [hvalue, hrest]
    exact .more (heq ▸ hfirst) hmore
  case closed =>
    intro owner params cs first _ rest heq hfirst
    obtain ⟨hvalue, hrest⟩ := readArgs_closed heq
    rw [hvalue, hrest]
    exact .closed (heq ▸ hfirst)
  case unclosed =>
    intro owner params cs first _ hcomma hclose hfirst
    have hrest : ∀ c ∈ first.rest.head?, c ≠ ',' ∧ c ≠ ']' := by
      intro c hc
      obtain ⟨rest, heq⟩ := List.head?_eq_some_iff.1 hc
      exact ⟨fun he => hcomma rest (he ▸ heq), fun he => hclose rest (he ▸ heq)⟩
    obtain ⟨hvalue, hrest'⟩ := readArgs_unclosed hrest
    rw [hvalue, hrest']
    exact .unclosed hfirst hrest

theorem span_name {name rest : List Char} (hname : ∀ c ∈ name, isBreak c = false)
    (hrest : AtMark rest) : ((name ++ rest).takeWhile fun c => !isBreak c) = name ∧
      ((name ++ rest).dropWhile fun c => !isBreak c) = rest := by
  have hplain : ∀ c ∈ name, (!isBreak c) = true := fun c hc => by rw [hname c hc]; rfl
  rw [List.takeWhile_append_of_pos hplain, List.dropWhile_append_of_pos hplain]
  cases rest with
  | nil => exact ⟨List.append_nil name, rfl⟩
  | cons c rest =>
    have hc : isBreak c = true := hrest c rfl
    simp [hc]

mutual

/-- A reading is what the reader gives. -/
theorem Reads.eq : {cs : List Char} → {t : TypeRef} → {rest : List Char} →
    Reads owner params cs t rest →
    (readRef owner params cs).value = t ∧ (readRef owner params cs).rest = rest
  | _, _, _, .named hname hrest hplain => by
    obtain ⟨htake, hdrop⟩ := span_name hname hrest
    obtain ⟨hvalue, hrest'⟩ := readRef_named owner params (hdrop.symm ▸ hplain)
    exact ⟨by rw [hvalue, htake], by rw [hrest', hdrop]⟩
  | _, _, _, .applied hname hargs => by
    obtain ⟨htake, hdrop⟩ := span_name hname (atMark_cons (by rfl : isBreak '[' = true) _)
    obtain ⟨hvalue, hrest'⟩ := readRef_applied owner params hdrop
    obtain ⟨hargs, hlast⟩ := hargs.eq
    exact ⟨by rw [hvalue, htake, hargs], by rw [hrest', hlast]⟩

theorem ReadsArgs.eq : {cs : List Char} → {as : List TypeRef} → {rest : List Char} →
    ReadsArgs owner params cs as rest →
    (readArgs owner params cs).value = as ∧ (readArgs owner params cs).rest = rest
  | _, _, _, .more ha has => by
    obtain ⟨ha, hcomma⟩ := ha.eq
    obtain ⟨has, hlast⟩ := has.eq
    obtain ⟨hvalue, hrest⟩ := readArgs_more hcomma
    exact ⟨by rw [hvalue, ha, has], by rw [hrest, hlast]⟩
  | _, _, _, .closed ha => by
    obtain ⟨ha, hclose⟩ := ha.eq
    obtain ⟨hvalue, hrest⟩ := readArgs_closed hclose
    exact ⟨by rw [hvalue, ha], hrest⟩
  | _, _, _, .unclosed ha hend => by
    obtain ⟨ha, hlast⟩ := ha.eq
    obtain ⟨hvalue, hrest⟩ := readArgs_unclosed (hlast.symm ▸ hend)
    exact ⟨by rw [hvalue, ha], by rw [hrest, hlast]⟩

end

end

/-! ### How much is read -/

/-- A mark that is followed by a reference. -/
def isOpening (c : Char) : Bool := c = '[' || c = ','

mutual

/-- The number of references in a reference. -/
def size : TypeRef → Nat
  | mk _ _ args => 1 + sizes args

def sizes : List TypeRef → Nat
  | [] => 0
  | a :: rest => size a + sizes rest

end

theorem size_withArgs (t : TypeRef) (args : List TypeRef) :
    (t.withArgs args).size = 1 + sizes args :=
  size.eq_1 ..

theorem size_ofPath (owner : String) (params : List String) (path : String) :
    (ofPath owner params path).size = 1 := by
  unfold ofPath
  split
  · exact size_withArgs (ofQualified path) []
  · split
    · rfl
    · split <;> rfl

theorem countP_isOpening_name {name : List Char} (h : ∀ c ∈ name, isBreak c = false) :
    name.countP isOpening = 0 := by
  rw [List.countP_eq_zero]
  intro c hc
  have hbreak := h c hc
  simp only [isBreak, Bool.or_eq_false_iff, decide_eq_false_iff_not] at hbreak
  simp [isOpening, hbreak.1.1, hbreak.2]

section
variable {owner : String} {params : List String}

mutual

/-- A reading takes its text from the front, and one reference for every opening mark in it. -/
theorem Reads.read : {cs : List Char} → {t : TypeRef} → {rest : List Char} →
    Reads owner params cs t rest → ∃ read, cs = read ++ rest ∧ t.size = 1 + read.countP isOpening
  | _, _, _, .named hname _ _ =>
    ⟨_, rfl, by rw [size_ofPath, countP_isOpening_name hname]⟩
  | _, _, _, .applied hname hargs => by
    obtain ⟨read, rfl, hsize⟩ := hargs.read
    refine ⟨_, (List.append_assoc _ ('[' :: read) _).symm, ?_⟩
    rw [size_withArgs, hsize, List.countP_append, countP_isOpening_name hname,
      List.countP_cons_of_pos (by rfl)]
    omega

theorem ReadsArgs.read : {cs : List Char} → {as : List TypeRef} → {rest : List Char} →
    ReadsArgs owner params cs as rest →
    ∃ read, cs = read ++ rest ∧ sizes as = 1 + read.countP isOpening
  | _, _, _, .more ha has => by
    obtain ⟨first, rfl, hfirst⟩ := ha.read
    obtain ⟨more, rfl, hmore⟩ := has.read
    refine ⟨first ++ ',' :: more, by simp, ?_⟩
    rw [sizes, hfirst, hmore, List.countP_append, List.countP_cons_of_pos (by rfl)]
    omega
  | _, _, _, .closed ha => by
    obtain ⟨read, rfl, hsize⟩ := ha.read
    refine ⟨read ++ [']'], by simp, ?_⟩
    rw [sizes, sizes, hsize, List.countP_append, List.countP_singleton]
    rfl
  | _, _, _, .unclosed ha _ => by
    obtain ⟨read, rfl, hsize⟩ := ha.read
    exact ⟨read, rfl, by rw [sizes, sizes, hsize, Nat.add_zero]⟩

end

end

/-! ### References that read back -/

/-- A text that is read as it stands, such as an identifier: it has no blanks, and no marks of
references or of paths. -/
structure IsSegment (s : String) : Prop where
  ne_empty : s ≠ ""
  plain : ∀ c ∈ s.toList, isBreak c = false ∧ c ≠ ':' ∧ Text.isBlank c = false

/-- Each name in a reference is read as what it names there: a builtin type by its canonical
spelling, a type parameter, a type in a namespace, or a type beside an owner that is in none. -/
inductive Readable (owner : String) (params : List String) : TypeRef → Prop where
  | builtin (b : BuiltinType) {args : List TypeRef}
    (hargs : ∀ a ∈ args, Readable owner params a) : Readable owner params (mk "" b.spelling args)
  | parameter {name : String} {args : List TypeRef} (hname : IsSegment name)
    (hparam : name ∈ params) (hfree : BuiltinType.ofSpelling? name = none)
    (hargs : ∀ a ∈ args, Readable owner params a) : Readable owner params (mk "" name args)
  | nominal {path : List String} {name : String} {args : List TypeRef} (hne : path ≠ [])
    (hpath : ∀ s ∈ path, IsSegment s) (hname : IsSegment name)
    (hargs : ∀ a ∈ args, Readable owner params a) :
    Readable owner params (mk (Name.joinPath path) name args)
  | root {name : String} {args : List TypeRef} (howner : owner = "") (hname : IsSegment name)
    (hfree : BuiltinType.ofSpelling? name = none) (hargs : ∀ a ∈ args, Readable owner params a) :
    Readable owner params (mk "" name args)

namespace IsSegment
variable {s : String} (h : IsSegment s)
include h

theorem colon_notMem : ':' ∉ s.toList := fun hmem => (h.plain ':' hmem).2.1 rfl

theorem unmarked : ∀ c ∈ s.toList, isBreak c = false ∧ Text.isBlank c = false :=
  fun c hc => ⟨(h.plain c hc).1, (h.plain c hc).2.2⟩

end IsSegment

end TypeRef

theorem Lexer.IsWord.isSegment {s : String} (h : Lexer.IsWord s) : TypeRef.IsSegment s where
  ne_empty := h.ne_empty
  plain := by
    intro c hc
    refine ⟨?_, fun he => h.colon_notMem (he ▸ hc), Name.textBlank_of_isPathChar (h.isPath c hc)⟩
    have hpart := h.parts c hc
    have hne (mark : Char) (hmark : Lexer.isIdentPart mark = false) : c ≠ mark := by
      rintro rfl
      rw [hmark] at hpart
      cases hpart
    simp [TypeRef.isBreak, hne '[' rfl, hne ']' rfl, hne ',' rfl]

theorem BuiltinType.isWord_spelling (b : BuiltinType) : Lexer.IsWord b.spelling := by
  cases b
  all_goals exact ⟨⟨_, _, rfl, rfl⟩, List.all_eq_true.1 rfl⟩

theorem Name.mem_joinPath {path : List String} {c : Char} (h : c ∈ (joinPath path).toList) :
    c = ':' ∨ ∃ s ∈ path, c ∈ s.toList := by
  induction path with
  | nil => cases h
  | cons first rest ih =>
    cases rest with
    | nil =>
      rw [joinPath, String.intercalate_singleton] at h
      exact .inr ⟨first, List.mem_cons_self, h⟩
    | cons second more =>
      rw [joinPath_cons_cons, String.toList_append, String.toList_append, List.mem_append,
        List.mem_append] at h
      rcases h with (h | h) | h
      · exact .inr ⟨first, List.mem_cons_self, h⟩
      · exact .inl (by simpa using h)
      · rcases ih h with rfl | ⟨s, hs, hc⟩
        · exact .inl rfl
        · exact .inr ⟨s, List.mem_cons_of_mem _ hs, hc⟩

namespace TypeRef

/-! ### Names that are read -/

section
variable (owner : String) (params : List String)

/-- A qualified name is read as the reference with that name. -/
structure Stands (ns name : String) : Prop where
  unmarked : ∀ c ∈ (Name.qualify ns name).toList, isBreak c = false ∧ Text.isBlank c = false
  meant : ofPath owner params (Name.qualify ns name) = mk ns name []

theorem ofPath_plain {name : String} (h : ':' ∉ name.toList) : ofPath owner params name =
    match BuiltinType.ofSpelling? name with
    | some b => builtin b
    | none => if params.contains name then ofName name else mk owner name [] := by
  have hplain : ¬Text.hasPart "::".toList name.toList = true := by
    rw [Text.hasPart_separator_plain h]
    exact Bool.false_ne_true
  unfold ofPath
  exact if_neg hplain

theorem stands_builtin (b : BuiltinType) : Stands owner params "" b.spelling where
  unmarked := b.isWord_spelling.isSegment.unmarked
  meant := by
    show ofPath owner params b.spelling = _
    rw [ofPath_plain owner params b.isWord_spelling.colon_notMem,
      BuiltinType.ofSpelling?_spelling]
    rfl

theorem stands_free {name : String} (hname : IsSegment name)
    (hfree : BuiltinType.ofSpelling? name = none) (h : name ∈ params ∨ owner = "") :
    Stands owner params "" name where
  unmarked := hname.unmarked
  meant := by
    show ofPath owner params name = _
    rw [ofPath_plain owner params hname.colon_notMem, hfree]
    dsimp only
    split
    · rfl
    · next hparam =>
      rcases h with h | rfl
      · exact absurd (List.contains_iff_mem.2 h) hparam
      · rfl

theorem stands_nominal {path : List String} {name : String} (hne : path ≠ [])
    (hpath : ∀ s ∈ path, IsSegment s) (hname : IsSegment name) :
    Stands owner params (Name.joinPath path) name := by
  have hns := Name.joinPath_ne_empty (fun s hs => (hpath s hs).ne_empty) hne
  have htext : (Name.qualify (Name.joinPath path) name).toList =
      (Name.joinPath path).toList ++ ':' :: ':' :: name.toList := by
    simp [Name.qualify, hns]
  constructor
  · intro c hc
    rw [htext, List.mem_append, List.mem_cons, List.mem_cons] at hc
    have hcolon : isBreak ':' = false ∧ Text.isBlank ':' = false := by decide
    rcases hc with hc | rfl | rfl | hc
    · rcases Name.mem_joinPath hc with rfl | ⟨s, hs, hc⟩
      · exact hcolon
      · exact (hpath s hs).unmarked c hc
    · exact hcolon
    · exact hcolon
    · exact hname.unmarked c hc
  · rw [ofPath, htext, Text.hasPart_separator, if_pos rfl, ofQualified,
      Name.splitQualified_qualify _ hname.colon_notMem]

variable {owner params}

theorem Readable.stands {ns name : String} {args : List TypeRef}
    (h : Readable owner params (mk ns name args)) : Stands owner params ns name := by
  cases h with
  | builtin b _ => exact stands_builtin owner params b
  | parameter hname hparam hfree _ => exact stands_free owner params hname hfree (.inl hparam)
  | nominal hne hpath hname _ => exact stands_nominal owner params hne hpath hname
  | root howner hname hfree _ => exact stands_free owner params hname hfree (.inr howner)

theorem Readable.args {ns name : String} {args : List TypeRef}
    (h : Readable owner params (mk ns name args)) : ∀ a ∈ args, Readable owner params a := by
  cases h with
  | builtin _ hargs => exact hargs
  | parameter _ _ _ hargs => exact hargs
  | nominal _ _ _ hargs => exact hargs
  | root _ _ _ hargs => exact hargs

theorem Stands.reads {ns name : String} (h : Stands owner params ns name) :
    ofPath owner params (Text.trim (String.ofList (Name.qualify ns name).toList)) =
      TypeRef.mk ns name [] := by
  rw [Text.trim, String.toList_ofList, Text.trimChars_plain fun c hc => (h.unmarked c hc).2,
    String.ofList_toList, h.meant]

/-! ### Texts that are read -/

/-- Blanks before a name are not part of it. -/
theorem Reads.blank {c : Char} (hc : Text.isBlank c = true) (hplain : isBreak c = false)
    {cs rest : List Char} {t : TypeRef} (h : Reads owner params cs t rest) :
    Reads owner params (c :: cs) t rest := by
  have htrim (name : List Char) :
      Text.trim (String.ofList (c :: name)) = Text.trim (String.ofList name) := by
    rw [Text.trim, Text.trim, String.toList_ofList, String.toList_ofList,
      Text.trimChars_blank_cons hc]
  cases h with
  | named hname hrest hnext =>
    rw [← htrim]
    exact .named (List.forall_mem_cons.2 ⟨hplain, hname⟩) hrest hnext
  | applied hname hargs =>
    rw [← htrim]
    exact .applied (List.forall_mem_cons.2 ⟨hplain, hname⟩) hargs

theorem ReadsArgs.blank {c : Char} (hc : Text.isBlank c = true) (hplain : isBreak c = false)
    {cs rest : List Char} {as : List TypeRef} (h : ReadsArgs owner params cs as rest) :
    ReadsArgs owner params (c :: cs) as rest := by
  cases h with
  | more ha has => exact .more (ha.blank hc hplain) has
  | closed ha => exact .closed (ha.blank hc hplain)
  | unclosed ha hrest => exact .unclosed (ha.blank hc hplain) hrest

mutual

/-- The text of a reference is read as the reference, up to the comma, the closing bracket or the
end of the text that follows it. -/
theorem reads_text : (t : TypeRef) → Readable owner params t → (rest : List Char) →
    (∀ c ∈ rest.head?, c = ',' ∨ c = ']') → Reads owner params (t.text.toList ++ rest) t rest
  | mk ns name [], h, rest, hrest => by
    have hmark : AtMark rest := fun c hc => by rcases hrest c hc with rfl | rfl <;> rfl
    have hplain : ∀ c ∈ rest.head?, c ≠ '[' := fun c hc => by
      rcases hrest c hc with rfl | rfl <;> decide
    have hreads : Reads owner params _ _ _ :=
      .named (fun c hc => (h.stands.unmarked c hc).1) hmark hplain
    rwa [h.stands.reads] at hreads
  | mk ns name (a :: as), h, rest, _ => by
    obtain ⟨ha, has⟩ := List.forall_mem_cons.1 h.args
    have hargs := readsArgs_text a as ha has rest
    have hreads : Reads owner params _ _ _ :=
      .applied (fun c hc => (h.stands.unmarked c hc).1) hargs
    rw [h.stands.reads] at hreads
    have htext : (mk ns name (a :: as)).text.toList ++ rest = (Name.qualify ns name).toList ++
        '[' :: (a.text.toList ++ (restText as).toList ++ ']' :: rest) := by
      simp [text]
    rw [htext]
    exact hreads
termination_by t => sizeOf t

theorem readsArgs_text : (a : TypeRef) → (as : List TypeRef) → Readable owner params a →
    (∀ b ∈ as, Readable owner params b) → (rest : List Char) →
    ReadsArgs owner params (a.text.toList ++ (restText as).toList ++ ']' :: rest) (a :: as) rest
  | a, [], ha, _, rest => by
    have hreads := reads_text a ha (']' :: rest) fun c hc => .inr (Option.some.inj hc).symm
    have htext : a.text.toList ++ (restText []).toList ++ ']' :: rest =
        a.text.toList ++ ']' :: rest := by
      simp [restText]
    rw [htext]
    exact .closed hreads
  | a, b :: more, ha, has, rest => by
    obtain ⟨hb, hmore⟩ := List.forall_mem_cons.1 has
    have hargs := (readsArgs_text b more hb hmore rest).blank (by decide : Text.isBlank ' ' = true)
      (by decide)
    have hreads := reads_text a ha (',' :: ' ' :: (b.text.toList ++ (restText more).toList ++
      ']' :: rest)) fun c hc => .inl (Option.some.inj hc).symm
    have htext : a.text.toList ++ (restText (b :: more)).toList ++ ']' :: rest =
        a.text.toList ++
          ',' :: ' ' :: (b.text.toList ++ (restText more).toList ++ ']' :: rest) := by
      simp [restText]
    rw [htext]
    exact .more hreads hargs
termination_by a as => sizeOf (a :: as)

end

end

/-- A reference is read back from its text. Whatever a text is, it has one reading, of which the
reference is the result; this makes one reference, and one more for each opening bracket and each
comma of the part of the text that it takes. -/
theorem parse_text (owner : String) (params : List String) :
    (∀ t, Readable owner params t → parse owner params t.text = t) ∧
      ∀ text : String, ∃ read rest, text.toList = read ++ rest ∧
        Reads owner params text.toList (parse owner params text) rest ∧
        (∀ t rest', Reads owner params text.toList t rest' →
          t = parse owner params text ∧ rest' = rest) ∧
        (parse owner params text).size = 1 + read.countP isOpening := by
  constructor
  · intro t ht
    have hreads := reads_text t ht [] nofun
    rw [List.append_nil] at hreads
    exact hreads.eq.1
  · intro text
    have hreads := readRef_reads owner params text.toList
    obtain ⟨read, hread, hsize⟩ := hreads.read
    refine ⟨read, _, hread, hreads, fun t rest' h => ?_, hsize⟩
    exact ⟨h.eq.1.symm, h.eq.2.symm⟩

/-- References of every kind, for an owner in no namespace with a type parameter. -/
theorem parse_text_pair :
    Readable "" ["T"] (mk "" "Option" [mk "" "Pair" [mk "app::shop" "Tag" [mk "" "int" []],
      mk "" "T" []]]) ∧
    parse "" ["T"] "Option[Pair[app::shop::Tag[int], T]]" =
      mk "" "Option" [mk "" "Pair" [mk "app::shop" "Tag" [mk "" "int" []], mk "" "T" []]] := by
  have hword (s : String) (hs : ∃ c rest, s.toList = c :: rest ∧ Lexer.isIdentStart c = true)
      (hparts : s.toList.all Lexer.isIdentPart = true) : IsSegment s :=
    Lexer.IsWord.isSegment ⟨hs, List.all_eq_true.1 hparts⟩
  have hint : Readable "" ["T"] (mk "" "int" []) := .builtin .int (List.forall_mem_nil _)
  have htag : Readable "" ["T"] (mk "app::shop" "Tag" [mk "" "int" []]) := by
    refine .nominal (List.cons_ne_nil "app" ["shop"]) ?_ (hword _ ⟨_, _, rfl, rfl⟩ rfl)
      (List.forall_mem_singleton.2 hint)
    exact List.forall_mem_cons.2 ⟨hword "app" ⟨_, _, rfl, rfl⟩ rfl,
      List.forall_mem_singleton.2 (hword _ ⟨_, _, rfl, rfl⟩ rfl)⟩
  have hparam : Readable "" ["T"] (mk "" "T" []) :=
    .parameter (hword _ ⟨_, _, rfl, rfl⟩ rfl) List.mem_cons_self (by decide) (List.forall_mem_nil _)
  have hpair : Readable "" ["T"]
      (mk "" "Pair" [mk "app::shop" "Tag" [mk "" "int" []], mk "" "T" []]) :=
    .root rfl (hword _ ⟨_, _, rfl, rfl⟩ rfl) (by decide)
      (List.forall_mem_cons.2 ⟨htag, List.forall_mem_singleton.2 hparam⟩)
  have hoption : Readable "" ["T"] (mk "" "Option"
      [mk "" "Pair" [mk "app::shop" "Tag" [mk "" "int" []], mk "" "T" []]]) :=
    .builtin .option (List.forall_mem_singleton.2 hpair)
  exact ⟨hoption, (parse_text "" ["T"]).1 _ hoption⟩

end TypeRef
end StagedMapping
