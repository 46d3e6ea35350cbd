import Mathlib
import StagedMapping.Generated.Identifier
import StagedMapping.Proofs.TokenView

/-! Names in generated code. The segments of a path of names are the names
(`Name.segments_joinPath`). The identifier for a name of letters, digits, underscores and
colons is the name itself, or its raw form if it is reserved in the generated language
(`identifier?_path`), so different names have different identifiers (`identifier?_inj`). -/
namespace StagedMapping

/-! ### Paths -/

namespace Name

theorem splitFrom_plain (current : List Char) {cs : List Char} (h : ':' ∉ cs) :
    splitFrom current cs = [current.reverse ++ cs] := by
  fun_induction splitFrom current cs with
  | case1 => simp
  | case2 => simp
  | case3 current c d rest hsep => simp [hsep.1] at h
  | case4 current c d rest hsep ih =>
    rw [ih fun hmem => h (List.mem_cons_of_mem _ hmem)]
    simp

theorem splitFrom_separated (current : List Char) {cs : List Char} (h : ':' ∉ cs)
    (rest : List Char) : splitFrom current (cs ++ ':' :: ':' :: rest) =
      (current.reverse ++ cs) :: splitFrom [] rest := by
  induction cs generalizing current with
  | nil => simp [splitFrom]
  | cons c cs ih =>
    have hc : c ≠ ':' := fun he => h (he ▸ List.mem_cons_self)
    have hrest : ':' ∉ cs := fun hmem => h (List.mem_cons_of_mem _ hmem)
    have hstep : splitFrom current (c :: (cs ++ ':' :: ':' :: rest)) =
        splitFrom (c :: current) (cs ++ ':' :: ':' :: rest) := by
      cases cs with
      | nil => rw [List.nil_append, splitFrom, if_neg fun he => hc he.1]
      | cons d ds => rw [List.cons_append, splitFrom, if_neg fun he => hc he.1]
    rw [List.cons_append, hstep, ih _ hrest, List.reverse_cons, List.append_assoc,
      List.singleton_append]

end Name

namespace Lexer.IsWord
variable {name : String} (h : Lexer.IsWord name)
include h

theorem colon_notMem : ':' ∉ name.toList := fun hmem => by
  cases h.parts ':' hmem

theorem ne_empty : name ≠ "" := by
  rintro rfl
  obtain ⟨c, rest, hc, -⟩ := h.start
  cases hc

end Lexer.IsWord

theorem Name.segments_joinPath {path : List String} (h : ∀ name ∈ path, Lexer.IsWord name) :
    Name.segments (Name.joinPath path) = path := by
  unfold Name.segments
  cases path with
  | nil => decide
  | cons first rest =>
    have hsplit : Name.splitFrom [] (Name.joinPath (first :: rest)).toList =
        (first :: rest).map String.toList := by
      induction rest generalizing first with
      | nil =>
        have hfirst := (h first List.mem_cons_self).colon_notMem
        rw [Name.joinPath, String.intercalate_singleton, Name.splitFrom_plain _ hfirst]
        rfl
      | cons second more ih =>
        have hfirst := (h first List.mem_cons_self).colon_notMem
        have htext : (Name.joinPath (first :: second :: more)).toList =
            first.toList ++ ':' :: ':' :: (Name.joinPath (second :: more)).toList := by
          simp [Name.joinPath, String.intercalate_cons_cons]
        rw [htext, Name.splitFrom_separated _ hfirst,
          ih second fun name hname => h name (List.mem_cons_of_mem _ hname)]
        rfl
    rw [hsplit]
    simp only [List.map_map, Function.comp_def, String.ofList_toList, List.map_id']
    exact List.filter_eq_self.2 fun name hname => by simpa using (h name hname).ne_empty

/-! ### Names and paths as texts -/

namespace Name

/-- A character of a name or of a mark between names. -/
def isPathChar (c : Char) : Bool := Lexer.isIdentPart c || c = ':'

/-- A text that a path of names may be written as. -/
def IsPath (name : String) : Prop := ∀ c ∈ name.toList, isPathChar c = true

instance (name : String) : Decidable (IsPath name) :=
  decidable_of_iff (name.toList.all isPathChar = true) List.all_eq_true

theorem toNat_of_isPathChar {c : Char} (h : isPathChar c = true) :
    48 ≤ c.toNat ∧ c.toNat ≤ 58 ∨ 65 ≤ c.toNat ∧ c.toNat ≤ 90 ∨ c.toNat = 95 ∨
      97 ≤ c.toNat ∧ c.toNat ≤ 122 := by
  simp only [isPathChar, Lexer.isIdentPart, Char.isAlphanum, Char.isAlpha, Char.isUpper,
    Char.isLower, Char.isDigit, Bool.or_eq_true, Bool.and_eq_true, decide_eq_true_eq, beq_iff_eq,
    ge_iff_le, UInt32.le_iff_toNat_le] at h
  rcases h with (((h | h) | h) | rfl) | rfl
  · exact .inr (.inl h)
  · exact .inr (.inr (.inr h))
  · exact .inl ⟨h.1, Nat.le_succ_of_le h.2⟩
  · exact .inr (.inr (.inl rfl))
  · exact .inl (by decide)

theorem textBlank_of_isPathChar {c : Char} (h : isPathChar c = true) : Text.isBlank c = false := by
  have hc := toNat_of_isPathChar h
  rw [Bool.eq_false_iff, Text.isBlank, Ne, Text.inRanges_iff]
  rintro ⟨r, hr, hlow, hhigh⟩
  simp only [Text.whiteSpace, List.mem_cons, List.not_mem_nil, or_false] at hr
  rcases hr with rfl | rfl | rfl | rfl | rfl | rfl | rfl | rfl | rfl | rfl <;> omega

end Name

theorem Lexer.IsWord.isPath {name : String} (h : Lexer.IsWord name) : Name.IsPath name :=
  fun c hc => by rw [Name.isPathChar, h.parts c hc, Bool.true_or]

namespace Name

theorem isPath_append {a b : String} : IsPath (a ++ b) ↔ IsPath a ∧ IsPath b := by
  simp only [IsPath, String.toList_append, List.forall_mem_append]

theorem isPath_joinPath {path : List String} (h : ∀ name ∈ path, IsPath name) :
    IsPath (joinPath path) := by
  induction path with
  | nil => exact fun c hc => by cases hc
  | cons first rest ih =>
    obtain ⟨hfirst, hrest⟩ := List.forall_mem_cons.1 h
    cases rest with
    | nil => rwa [joinPath, String.intercalate_singleton]
    | cons second more =>
      rw [joinPath, String.intercalate_cons_cons, isPath_append, isPath_append]
      exact ⟨⟨hfirst, by decide⟩, ih hrest⟩

theorem joinPath_cons_cons (first second : String) (more : List String) :
    joinPath (first :: second :: more) = first ++ "::" ++ joinPath (second :: more) := by
  simp [joinPath, String.intercalate_cons_cons]

theorem joinPath_ne_empty {path : List String} (hpath : ∀ name ∈ path, name ≠ "")
    (hne : path ≠ []) : joinPath path ≠ "" := by
  cases path with
  | nil => exact absurd rfl hne
  | cons first rest =>
    have hfirst := hpath first List.mem_cons_self
    cases rest with
    | nil => rwa [joinPath, String.intercalate_singleton]
    | cons second more => simp [joinPath_cons_cons]

theorem joinPath_concat {path : List String} (hpath : ∀ name ∈ path, Lexer.IsWord name)
    (name : String) : joinPath (path ++ [name]) = qualify (joinPath path) name := by
  by_cases hne : path = []
  · simp [hne, joinPath, qualify]
  · rw [qualify, if_neg (joinPath_ne_empty (fun name hname => (hpath name hname).ne_empty) hne)]
    clear hpath
    induction path with
    | nil => contradiction
    | cons first rest ih =>
      cases rest with
      | nil => simp [joinPath]
      | cons second more =>
        rw [List.cons_append, List.cons_append, joinPath_cons_cons, joinPath_cons_cons,
          ← List.cons_append, ih (List.cons_ne_nil _ _)]
        simp [String.append_assoc]

/-- A path of words, of which there may be none. -/
def IsJoined (q : String) : Prop :=
  ∃ path, (∀ name ∈ path, Lexer.IsWord name) ∧ q = joinPath path

theorem IsJoined.isPath {q : String} (h : IsJoined q) : IsPath q := by
  obtain ⟨path, hpath, rfl⟩ := h
  exact isPath_joinPath fun name hname => (hpath name hname).isPath

theorem IsJoined.qualify {ns name : String} (hns : IsJoined ns) (hname : Lexer.IsWord name) :
    IsJoined (Name.qualify ns name) := by
  obtain ⟨path, hpath, rfl⟩ := hns
  refine ⟨path ++ [name], ?_, (joinPath_concat hpath name).symm⟩
  exact List.forall_mem_append.2 ⟨hpath, List.forall_mem_singleton.2 hname⟩

theorem IsPath.qualify {ns name : String} (hns : IsPath ns) (hname : IsPath name) :
    IsPath (Name.qualify ns name) := by
  unfold Name.qualify
  split
  · exact hname
  · rw [isPath_append, isPath_append]
    exact ⟨⟨hns, by decide⟩, hname⟩

theorem IsPath.of_qualify {ns name : String} (h : IsPath (Name.qualify ns name)) : IsPath name := by
  unfold Name.qualify at h
  split at h
  · exact h
  · exact (isPath_append.1 h).2

theorem splitLast_eq {cs before after : List Char} (h : splitLast cs = some (before, after)) :
    cs = before ++ ':' :: ':' :: after := by
  induction cs generalizing before with
  | nil => cases h
  | cons c rest ih =>
    unfold splitLast at h
    split at h
    · next hrest =>
      cases h
      rw [ih hrest, List.cons_append]
    · cases h
      rfl
    · cases h

theorem IsPath.splitQualified {path : String} (h : IsPath path) :
    IsPath (Name.splitQualified path).1 ∧ IsPath (Name.splitQualified path).2 := by
  unfold Name.splitQualified
  split
  · next ns name hsplit =>
    have hparts : ∀ c ∈ ns ++ ':' :: ':' :: name, isPathChar c = true :=
      splitLast_eq hsplit ▸ h
    obtain ⟨hns, hname⟩ := List.forall_mem_append.1 hparts
    constructor
    · simpa [IsPath] using hns
    · intro c hc
      rw [String.toList_ofList] at hc
      exact hname c (List.mem_cons_of_mem _ (List.mem_cons_of_mem _ hc))
  · exact ⟨List.forall_mem_nil _, h⟩

end Name

/-! ### Identifiers -/

namespace Generated
namespace Lexeme

theorem eq_append_of_splitWord {cs word rest : List Char}
    (h : Text.splitWord cs = some (word, rest)) : cs = word ++ rest := by
  unfold Text.splitWord at h
  split at h
  · cases h
  · split at h
    · cases h
      rw [List.cons_append, List.takeWhile_append_dropWhile]
    · cases h

/-- A word stands in the text as it is written. -/
theorem eq_append_of_word? {cs rest : List Char} {w : String} (h : word? cs = some (w, rest)) :
    cs = w.toList ++ rest := by
  unfold word? at h
  split at h
  · split at h
    · next word after hsplit =>
      split at h
      · cases h
      · cases h
        simp [eq_append_of_splitWord hsplit]
    · cases h
  · obtain ⟨⟨word, after⟩, hsplit, he⟩ := Option.map_eq_some_iff.1 h
    cases he
    simpa using eq_append_of_splitWord hsplit

/-- A word at the front was read as one. -/
theorem word?_of_next? {cs rest : List Char} {w : String} (h : next? cs = some (.word w, rest)) :
    word? cs = some (w, rest) := by
  unfold next? at h
  split at h
  · cases h
  · split at h
    · unfold lifetime? at h
      simp only [Option.bind_eq_bind, Option.bind_eq_some_iff] at h
      obtain ⟨⟨name, after⟩, -, h⟩ := h
      dsimp only at h
      split at h <;> cases h
    · split at h
      · cases h
      split at h
      · split at h <;> cases h
      split at h
      · cases h
      · obtain ⟨⟨word, after⟩, hword, he⟩ := Option.map_eq_some_iff.1 h
        cases he
        exact hword
    · cases h

theorem colon_notMem_of_splitWord {cs word rest : List Char}
    (h : Text.splitWord cs = some (word, rest)) : ':' ∉ word := by
  have hstart : Text.isWordStart ':' = false := by decide +kernel
  have hpart : Text.isWordPart ':' = false := by decide +kernel
  unfold Text.splitWord at h
  split at h
  · cases h
  · split at h
    · next hc =>
      cases h
      intro hmem
      rcases List.mem_cons.1 hmem with rfl | hmem
      · rw [hstart] at hc
        cases hc
      · have := List.mem_takeWhile_imp hmem
        rw [hpart] at this
        cases this
    · cases h

theorem colon_notMem_of_word? {cs rest : List Char} {w : String} (h : word? cs = some (w, rest)) :
    ':' ∉ w.toList := by
  unfold word? at h
  split at h
  · split at h
    · next word after hsplit =>
      split at h
      · cases h
      · cases h
        simpa using colon_notMem_of_splitWord hsplit
    · cases h
  · obtain ⟨⟨word, after⟩, hsplit, he⟩ := Option.map_eq_some_iff.1 h
    cases he
    simpa using colon_notMem_of_splitWord hsplit

theorem isBlank_of_isPathChar {c : Char} (h : Name.isPathChar c = true) : isBlank c = false := by
  have hblank := Name.textBlank_of_isPathChar h
  have hleft : c ≠ '\u200e' := by
    rintro rfl
    cases h
  have hright : c ≠ '\u200f' := by
    rintro rfl
    cases h
  simp [isBlank, hblank, hleft, hright]

theorem scanFrom?_path {fuel : Nat} {c : Char} {cs : List Char} {ls : List Lexeme}
    (hc : Name.isPathChar c = true) (h : scanFrom? (fuel + 1) (c :: cs) = some ls) :
    ∃ first rest more, next? (c :: cs) = some (first, rest) ∧ scanFrom? fuel rest = some more ∧
      ls = first :: more := by
  have hcomment : pastComment? (c :: cs) = none := by
    have hslash : c ≠ '/' := by
      rintro rfl
      cases hc
    unfold pastComment?
    split
    · rfl
    · split
      · next heq => cases heq; exact absurd rfl hslash
      · next heq => cases heq; exact absurd rfl hslash
      · rfl
  rw [scanFrom?, isBlank_of_isPathChar hc, if_neg Bool.false_ne_true, hcomment] at h
  simp only [Option.bind_eq_bind, Option.bind_eq_some_iff] at h
  obtain ⟨⟨first, rest⟩, hfirst, more, hmore, he⟩ := h
  exact ⟨first, rest, more, hfirst, hmore, (Option.some.inj he).symm⟩

end Lexeme

/-- A path that is read as one word is one word at its front, with nothing after it. -/
theorem word?_of_scan?_path {name w : String} (h : Name.IsPath name)
    (hscan : Lexeme.scan? name = some [.word w]) : Lexeme.word? name.toList = some (w, []) := by
  unfold Lexeme.scan? at hscan
  cases hname : name.toList with
  | nil =>
    rw [hname] at hscan
    cases hscan
  | cons c cs =>
    have hpath : ∀ d ∈ c :: cs, Name.isPathChar d = true := hname ▸ h
    have hmark : c ≠ '\ufeff' := by
      rintro rfl
      cases hpath _ List.mem_cons_self
    simp only [hname, List.head?_cons, Option.some.injEq, if_neg hmark] at hscan
    obtain ⟨first, rest, more, hfirst, hmore, he⟩ :=
      Lexeme.scanFrom?_path (hpath c List.mem_cons_self) hscan
    obtain ⟨rfl, rfl⟩ := List.cons.inj he
    have hword := Lexeme.word?_of_next? hfirst
    cases rest with
    | nil => exact hword
    | cons d ds =>
      -- What follows the word would be read as a second lexeme.
      have htext := Lexeme.eq_append_of_word? hword
      have hd : Name.isPathChar d = true := hpath d (by simp [htext])
      obtain ⟨_, _, _, _, _, he⟩ := Lexeme.scanFrom?_path hd hmore
      cases he

/-- A path that is read as one word is that word. -/
theorem eq_of_scan?_path {name w : String} (h : Name.IsPath name)
    (hscan : Lexeme.scan? name = some [.word w]) : w = name := by
  have htext := Lexeme.eq_append_of_word? (word?_of_scan?_path h hscan)
  rw [List.append_nil] at htext
  exact (String.toList_inj.1 htext).symm

/-- The identifier for a name is the name, or its raw form. -/
theorem identifier?_path {name w : String} (h : Name.IsPath name) (hw : identifier? name = some w) :
    w = name ∨ w = "r#" ++ name := by
  unfold identifier? at hw
  split at hw
  · split at hw
    · exact .inr (Option.some.inj hw).symm
    · cases hw
  · split at hw
    · next hscan =>
      split at hw
      · cases hw
      · cases hw
        exact .inl (eq_of_scan?_path h hscan)
    · cases hw

/-- Different names have different identifiers. -/
theorem identifier?_inj {a b w : String} (ha : Name.IsPath a) (hb : Name.IsPath b)
    (hwa : identifier? a = some w) (hwb : identifier? b = some w) : a = b := by
  have hraw {a b : String} (ha : Name.IsPath a) (he : a = "r#" ++ b) : a = b := by
    have hmem : '#' ∈ a.toList := by simp [he]
    cases ha '#' hmem
  rcases identifier?_path ha hwa with rfl | rfl <;> rcases identifier?_path hb hwb with he | he
  · exact he
  · exact hraw ha he
  · exact (hraw hb he.symm).symm
  · exact (String.append_right_inj _).1 he

/-- A path that has an identifier is a name, without a mark between names. -/
theorem colon_notMem_of_identifier? {name w : String} (h : Name.IsPath name)
    (hw : identifier? name = some w) : ':' ∉ name.toList := by
  unfold identifier? at hw
  split at hw
  · next hreserved =>
    have hplain : ∀ word ∈ ReservedWord.all, ':' ∉ word.toList := by decide +kernel
    exact hplain name (List.contains_iff_mem.1 hreserved)
  · split at hw
    · next hscan =>
      have hword := word?_of_scan?_path h hscan
      rw [eq_of_scan?_path h hscan] at hword
      exact Lexeme.colon_notMem_of_word? hword
    · cases hw

end Generated

end StagedMapping
