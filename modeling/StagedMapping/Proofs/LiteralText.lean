import StagedMapping.Proofs.Scanning
import StagedMapping.Proofs.TokenView

/-! The text of a literal among other text. If it reads back as its token when it stands
alone, it does so before anything that cannot go on a word or a number (`Stops`), and
nothing of what follows is taken (`Literal.LexesBack.scans`). -/
namespace StagedMapping

def TokenKind.isNumber : TokenKind → Bool
  | int _ | float _ => true
  | _ => false

theorem TokenKind.isPlain_of_isNumber {k : TokenKind} (h : k.isNumber = true) :
    k.isPlain = true := by
  cases k <;> first | rfl | cases h

namespace Lexer

/-- Neither a word nor a number can go on with this text. -/
def Stops : List Char → Prop
  | [] => True
  | c :: rest =>
    isIdentPart c = false ∧ c ≠ '+' ∧ c ≠ '-' ∧ (c = '.' → ∀ d ∈ rest.head?, d.isDigit = false)

/-- The marks that an expression can stand before, the point aside. -/
theorem stops_cons {c : Char} (hc : c ∈ [' ', ',', '(', ')', '[', ']', ':']) (rest : List Char) :
    Stops (c :: rest) := by
  simp only [List.mem_cons, List.not_mem_nil, or_false] at hc
  rcases hc with rfl | rfl | rfl | rfl | rfl | rfl | rfl
  all_goals exact ⟨by decide, by decide, by decide, fun h => by cases h⟩

namespace Stops
variable {cs : List Char}

theorem identPart (h : Stops cs) : ∀ c ∈ cs.head?, isIdentPart c = false := by
  cases cs with
  | nil => exact fun _ hc => by cases hc
  | cons c rest =>
    rintro _ ⟨⟩
    exact h.1

theorem digitPart (h : Stops cs) : ∀ c ∈ cs.head?, isDigitPart c = false := by
  intro c hc
  have part := h.identPart c hc
  simp only [isIdentPart, Char.isAlphanum, Bool.or_eq_false_iff] at part
  simp only [isDigitPart, Bool.or_eq_false_iff]
  exact ⟨part.1.2, part.2⟩

end Stops

/-! ### Longest matches before a stop -/

theorem takeWhile_append_of_stop {p : Char → Bool} {cs : List Char}
    (h : ∀ c ∈ cs.head?, p c = false) (xs : List Char) :
    (xs ++ cs).takeWhile p = xs.takeWhile p := by
  induction xs with
  | nil =>
    cases cs with
    | nil => rfl
    | cons c rest => exact List.takeWhile_cons_of_neg (by simp [h c rfl])
  | cons x rest ih =>
    rw [List.cons_append, List.takeWhile_cons, List.takeWhile_cons, ih]

theorem dropWhile_append_of_stop {p : Char → Bool} {cs : List Char}
    (h : ∀ c ∈ cs.head?, p c = false) (xs : List Char) :
    (xs ++ cs).dropWhile p = xs.dropWhile p ++ cs := by
  induction xs with
  | nil =>
    cases cs with
    | nil => rfl
    | cons c rest => exact List.dropWhile_cons_of_neg (by simp [h c rfl])
  | cons x rest ih =>
    rw [List.cons_append, List.dropWhile_cons, List.dropWhile_cons, ih]
    split <;> rfl

variable {cs : List Char}

/-- Without a digit after a point there is no fraction. -/
theorem readFraction_eq_nil {xs : List Char}
    (h : ∀ d rest, xs = '.' :: d :: rest → d.isDigit = false) : readFraction xs = ([], xs) := by
  unfold readFraction
  split
  · rw [if_neg (by simp [h _ _ rfl])]
  · rfl

/-- The fraction of a front is not changed by a stop. -/
theorem readFraction_before (h : Stops cs) (xs : List Char) :
    readFraction (xs ++ cs) = ((readFraction xs).1, (readFraction xs).2 ++ cs) := by
  -- two characters decide; a front that is shorter looks at what follows it
  rcases xs with _ | ⟨c, _ | ⟨d, rest⟩⟩
  · refine readFraction_eq_nil fun d rest hcs => ?_
    subst hcs
    exact h.2.2.2 rfl d rfl
  · rw [readFraction_eq_nil, readFraction_eq_nil]
    · exact fun _ _ hc => by cases hc
    · intro d rest hcs
      obtain ⟨-, rfl⟩ := List.cons.inj hcs
      have part := h.digitPart d rfl
      simp only [isDigitPart, Bool.or_eq_false_iff] at part
      exact part.1
  · by_cases hc : c = '.'
    · subst hc
      simp only [readFraction, List.cons_append, takeWhile_append_of_stop h.digitPart,
        dropWhile_append_of_stop h.digitPart]
      split <;> rfl
    · have none (ys : List Char) : readFraction (c :: ys) = ([], c :: ys) :=
        readFraction_eq_nil fun _ _ h => absurd (List.cons.inj h).1 hc
      rw [List.cons_append, none, none]
      rfl

/-- Without its letter there is no exponent. -/
theorem readPower_eq_nil {xs : List Char} (h : ∀ c ∈ xs.head?, ¬(c = 'e' ∨ c = 'E')) :
    readPower xs = ([], xs) := by
  cases xs with
  | nil => rfl
  | cons c rest => exact if_neg (h c rfl)

/-- The exponent of a front is not changed by a stop. -/
theorem readPower_before (h : Stops cs) (xs : List Char) :
    readPower (xs ++ cs) = ((readPower xs).1, (readPower xs).2 ++ cs) := by
  have stop : ∀ c ∈ cs.head?, ¬(c = 'e' ∨ c = 'E') := by
    rintro c hc (rfl | rfl)
    all_goals cases h.identPart _ hc
  rcases xs with _ | ⟨c, _ | ⟨d, rest⟩⟩
  · exact readPower_eq_nil stop
  · by_cases hc : c = 'e' ∨ c = 'E'
    · cases cs with
      | nil => simp [readPower, hc]
      | cons s more =>
        have part := h.digitPart s rfl
        simp [readPower, hc, h.2.1, h.2.2.1, part]
    · simp [readPower, hc]
  · by_cases hc : c = 'e' ∨ c = 'E'
    · have whole := takeWhile_append_of_stop h.digitPart (d :: rest)
      have left := dropWhile_append_of_stop h.digitPart (d :: rest)
      simp only [List.cons_append] at whole left
      simp only [readPower, List.cons_append, if_pos hc, whole, left,
        takeWhile_append_of_stop h.digitPart, dropWhile_append_of_stop h.digitPart]
      split <;> rfl
    · simp [readPower, hc]

/-- A number is the same before a stop. -/
theorem readNumber_before (h : Stops cs) (xs : List Char) :
    readNumber (xs ++ cs) = { readNumber xs with rest := (readNumber xs).rest ++ cs } := by
  simp only [readNumber, takeWhile_append_of_stop h.digitPart, dropWhile_append_of_stop h.digitPart,
    readFraction_before h, readPower_before h]

/-! ### The text of a number -/

theorem pieceAt_of_isDigit {c : Char} (h : c.isDigit = true) (rest : List Char) :
    pieceAt c rest = readNumber (c :: rest) := by
  have blank : ¬(c = ' ' ∨ c = '\t' ∨ c = '\r') := by rintro (rfl | rfl | rfl) <;> cases h
  have comment : c ≠ '#' := by
    rintro rfl
    cases h
  have quote : ¬(c = '"' ∨ c = '\'') := by rintro (rfl | rfl) <;> cases h
  rw [pieceAt, if_neg blank, if_neg comment, if_neg quote, if_pos h]

/-- Only a digit starts a number. -/
theorem Leads.isDigit_of_isNumber {c : Char} {rest : List Char} {k : TokenKind}
    (h : Leads c rest k) (hk : k.isNumber = true) : c.isDigit = true := by
  cases h with
  | int hc | float hc => exact hc
  | word =>
    unfold wordKind at hk
    split at hk <;> cases hk
  | string | operator | mark => cases hk

/-- Can stand in a number that is written out. -/
def isNumberPart (c : Char) : Bool := isIdentPart c || c == '.' || c == '-'

theorem isNumberPart_of_isDigit {c : Char} (h : c.isDigit = true) : isNumberPart c = true := by
  simp [isNumberPart, isIdentPart, Char.isAlphanum, h]

theorem startsLine_of_isNumberPart {c : Char} (h : isNumberPart c = true) :
    startsLine c = true := by
  refine startsLine_iff.2 ⟨?_, ?_, ?_⟩
  · rintro (rfl | rfl | rfl) <;> cases h
  · rintro rfl
    cases h
  · rintro rfl
    cases h

theorem isNumberPart_of_mem_toDigits {n : Nat} {c : Char} (h : c ∈ Nat.toDigits 10 n) :
    isNumberPart c = true :=
  isNumberPart_of_isDigit (Nat.isDigit_of_mem_toDigits (by decide) (by decide) h)

theorem isNumberPart_of_mem_toString {i : Int} {c : Char} (h : c ∈ (toString i).toList) :
    isNumberPart c = true := by
  rw [Int.toString_eq_repr, Int.repr_eq_if] at h
  split at h
  · rw [Nat.toList_repr] at h
    exact isNumberPart_of_mem_toDigits h
  · rw [String.toList_append, Nat.toList_repr, List.mem_append] at h
    rcases h with h | h
    · cases List.mem_singleton.1 h
      rfl
    · exact isNumberPart_of_mem_toDigits h

theorem isNumberPart_of_mem_significant {d : Number.Decimal} {c : Char}
    (h : c ∈ Number.significant d) : isNumberPart c = true := by
  have sub := ((Nat.toDigits 10 d.digits).reverse.dropWhile_sublist (· == '0')).subset
  exact isNumberPart_of_mem_toDigits (List.mem_reverse.1 (sub (List.mem_reverse.1 h)))

theorem isNumberPart_of_mem_signed {x : Float} {size : List Char}
    (hs : ∀ c ∈ size, isNumberPart c = true) :
    ∀ c ∈ (Number.signed x size).toList, isNumberPart c = true := by
  rw [Number.signed, String.toList_ofList]
  split
  · exact List.forall_mem_cons.2 ⟨rfl, hs⟩
  · exact hs

theorem isNumberPart_of_mem_positional {digits : List Char} (point : Int)
    (hd : ∀ c ∈ digits, isNumberPart c = true) :
    (∀ c ∈ (Number.positional digits point).1, isNumberPart c = true) ∧
      ∀ c ∈ (Number.positional digits point).2, isNumberPart c = true := by
  have zeros (n : Nat) : ∀ c ∈ List.replicate n '0', isNumberPart c = true :=
    fun c hc => by rw [(List.mem_replicate.1 hc).2]; rfl
  unfold Number.positional
  split
  · exact ⟨List.forall_mem_singleton.2 rfl, List.forall_mem_append.2 ⟨zeros _, hd⟩⟩
  · exact ⟨List.forall_mem_append.2 ⟨fun c hc => hd c (List.mem_of_mem_take hc), zeros _⟩,
      fun c hc => hd c (List.mem_of_mem_drop hc)⟩

theorem isNumberPart_of_mem_scientific {digits : List Char} {point : Int}
    (hd : ∀ c ∈ digits, isNumberPart c = true) :
    ∀ c ∈ Number.scientific digits point, isNumberPart c = true := by
  have fraction : ∀ c ∈ digits.drop 1, isNumberPart c = true :=
    fun c hc => hd c (List.mem_of_mem_drop hc)
  refine List.forall_mem_append.2 ⟨List.forall_mem_append.2 ⟨?_, ?_⟩, ?_⟩
  · exact fun c hc => hd c (List.mem_of_mem_take hc)
  · split
    · exact fun _ hc => by cases hc
    · exact List.forall_mem_cons.2 ⟨rfl, fraction⟩
  · exact List.forall_mem_cons.2 ⟨rfl, fun c hc => isNumberPart_of_mem_toString hc⟩

theorem isNumberPart_of_mem_render (x : Float) :
    ∀ c ∈ (Number.render x).toList, isNumberPart c = true := by
  have digits : ∀ c ∈ Number.significant (Number.shortest x), isNumberPart c = true :=
    fun c hc => isNumberPart_of_mem_significant hc
  unfold Number.render
  split
  · exact List.all_eq_true.1 rfl
  split
  · exact isNumberPart_of_mem_signed (List.all_eq_true.1 rfl)
  split
  · exact isNumberPart_of_mem_signed (List.all_eq_true.1 rfl)
  dsimp only
  split
  · have ⟨whole, fraction⟩ :=
      isNumberPart_of_mem_positional (Number.pointAt (Number.shortest x)) digits
    refine isNumberPart_of_mem_signed (List.forall_mem_append.2 ⟨whole, ?_⟩)
    refine List.forall_mem_cons.2 ⟨rfl, ?_⟩
    split
    · exact List.all_eq_true.1 rfl
    · exact fraction
  · exact isNumberPart_of_mem_signed (isNumberPart_of_mem_scientific digits)

/-- A text that has a token has a first character. -/
theorem exists_cons_of_lex {text : String} {tokens : List Token} {k : TokenKind}
    (h : lex text = .ok tokens) (hk : tokens.map (·.kind) = [k, .newline, .eof]) :
    ∃ c cs, text.toList = c :: cs := by
  cases hs : text.toList with
  | cons c cs => exact ⟨c, cs, rfl⟩
  | nil =>
    obtain ⟨lexed, last, run, -, rfl⟩ := lex_eq_ok.1 h
    rw [hs, State.run] at run
    obtain ⟨lexemes, rfl⟩ := Prod.mk.inj run
    cases List.map_eq_nil_iff.1 lexemes.symm
    cases hk

/-- A number that is all there is on a line is the longest match there. -/
theorem readNumber_of_lex {text : String} {tokens : List Token} {k : TokenKind}
    (hp : ∀ c ∈ text.toList, isNumberPart c = true) (h : lex text = .ok tokens)
    (hk : tokens.map (·.kind) = [k, .newline, .eof]) (hn : k.isNumber = true) :
    ∃ c cs, text.toList = c :: cs ∧ c.isDigit = true ∧
      readNumber (c :: cs) = ⟨.token k, c :: cs, []⟩ := by
  obtain ⟨c, cs, hs⟩ := exists_cons_of_lex h hk
  rw [hs] at hp
  obtain ⟨meaning, left⟩ :=
    piece_of_lex hs (startsLine_of_isNumberPart (hp c List.mem_cons_self)) h hk
  have digit : c.isDigit = true := (leads_of_pieceAt meaning).isDigit_of_isNumber hn
  have whole := pieceAt_append c cs
  -- whatever were left over could stand in a number, and so would start another token
  have rest : (pieceAt c cs).rest = [] := by
    cases hrest : (pieceAt c cs).rest with
    | nil => rfl
    | cons d more =>
      have starts : startsLine d = true := by
        refine startsLine_of_isNumberPart (hp d ?_)
        rw [← whole, hrest]
        simp
      rw [hrest] at left
      cases starts.symm.trans (left d rfl)
  rw [rest, List.append_nil] at whole
  refine ⟨c, cs, hs, digit, ?_⟩
  calc readNumber (c :: cs) = pieceAt c cs := (pieceAt_of_isDigit digit cs).symm
    _ = ⟨(pieceAt c cs).meaning, (pieceAt c cs).taken, (pieceAt c cs).rest⟩ := rfl
    _ = ⟨.token k, c :: cs, []⟩ := by rw [meaning, whole, rest]

theorem scans_number {text : String} {tokens : List Token} {k : TokenKind} {rest : List Char}
    {ks : List TokenKind} (hp : ∀ c ∈ text.toList, isNumberPart c = true)
    (h : lex text = .ok tokens) (hk : tokens.map (·.kind) = [k, .newline, .eof])
    (hn : k.isNumber = true) (stop : Stops cs) (more : Scans cs ks rest) :
    Scans (text.toList ++ cs) (k :: ks) rest := by
  obtain ⟨c, xs, hs, digit, number⟩ := readNumber_of_lex hp h hk hn
  have piece : pieceAt c (xs ++ cs) = ⟨.token k, c :: xs, cs⟩ := by
    rw [pieceAt_of_isDigit digit, ← List.cons_append, readNumber_before stop, number]
    rfl
  rw [hs]
  refine .piece ?_ piece (TokenKind.isPlain_of_isNumber hn) more
  rintro rfl
  cases digit

/-! ### The text of a string -/

/-- Between quotes, the first text is read as the second one, whatever follows. -/
def ReadsAs (xs text : List Char) : Prop :=
  ∀ rest, rest ≠ [] → readQuoted '"' (xs ++ rest) =
    ((readQuoted '"' rest).1.map (text ++ ·), xs ++ (readQuoted '"' rest).2.1,
      (readQuoted '"' rest).2.2)

/-- Stands for itself between quotes. -/
def isVerbatim (c : Char) : Bool := c ≠ '\n' && c ≠ '"' && c ≠ '\\'

namespace ReadsAs
variable {xs ys text more : List Char}

theorem nil : ReadsAs [] [] := by
  intro rest _
  simp

theorem verbatim {c : Char} (hc : isVerbatim c = true) : ReadsAs [c] [c] := by
  simp only [isVerbatim, Bool.and_eq_true, decide_eq_true_eq] at hc
  obtain ⟨⟨newline, quote⟩, escape⟩ := hc
  intro rest hne
  obtain ⟨d, ds, rfl⟩ := List.exists_cons_of_ne_nil hne
  simp [readQuoted, newline, quote, escape]

theorem pair (d : Char) : ReadsAs ['\\', d] (unescape d) := by
  intro rest _
  simp [readQuoted]

theorem append (h : ReadsAs xs text) (h' : ReadsAs ys more) :
    ReadsAs (xs ++ ys) (text ++ more) := by
  intro rest hne
  have left : ys ++ rest ≠ [] := by simp [hne]
  rw [List.append_assoc, h _ left, h' rest hne]
  simp [Option.map_map, Function.comp_def]

theorem all_verbatim (h : ∀ c ∈ xs, isVerbatim c = true) : ReadsAs xs xs := by
  induction xs with
  | nil => exact .nil
  | cons c rest ih =>
    rw [List.forall_mem_cons] at h
    exact (verbatim h.1).append (ih h.2)

end ReadsAs

theorem isVerbatim_hexDigit : ∀ n < 16, isVerbatim (Nat.digitChar n) = true := by decide

theorem forall_mem_toDigits {P : Char → Prop} (h : ∀ n < 16, P (Nat.digitChar n)) (n : Nat) :
    ∀ c ∈ Nat.toDigits 16 n, P c := by
  induction n using Nat.strongRecOn with
  | ind n ih =>
    rw [Nat.toDigits_eq_if (by decide)]
    split
    · exact List.forall_mem_singleton.2 (h n ‹_›)
    · refine List.forall_mem_append.2 ⟨ih (n / 16) (by omega), ?_⟩
      exact List.forall_mem_singleton.2 (h _ (by omega))

theorem isVerbatim_of_mem_toDigits (n : Nat) : ∀ c ∈ Nat.toDigits 16 n, isVerbatim c = true :=
  forall_mem_toDigits isVerbatim_hexDigit n

/-- What the escape of a character is read as: the lexer knows no code points, and keeps the
text of one. -/
def reread (c : Char) : List Char :=
  if Text.escapeChar c = Text.codePointEscape c then Text.codePointEscape c else [c]

theorem readsAs_codePointEscape (c : Char) :
    ReadsAs (Text.codePointEscape c) (Text.codePointEscape c) := by
  have digits := ReadsAs.all_verbatim (isVerbatim_of_mem_toDigits c.toNat)
  exact ((ReadsAs.pair 'u').append (.verbatim (c := '{') rfl)).append digits
    |>.append (.verbatim (c := '}') rfl)

theorem readsAs_escapeChar (c : Char) : ReadsAs (Text.escapeChar c) (reread c) := by
  by_cases numbered : Text.escapeChar c = Text.codePointEscape c
  · rw [reread, if_pos numbered, numbered]
    exact readsAs_codePointEscape c
  rw [reread, if_neg numbered]
  unfold Text.escapeChar at numbered ⊢
  split
  · subst c
    exact .pair '"'
  split
  · subst c
    exact .pair '\\'
  split
  · subst c
    exact .pair 'n'
  split
  · subst c
    exact .pair 'r'
  split
  · subst c
    exact .pair 't'
  split
  · rename_i zero
    obtain rfl : c = Char.ofNat 0 := by rw [← zero, Char.ofNat_toNat]
    exact .pair '0'
  split
  · rename_i quote escape newline _ _ _ _
    exact .verbatim (by simp [isVerbatim, quote, escape, newline])
  · -- what has no other escape is written by its code point
    simp_all

theorem readsAs_flatMap (cs : List Char) :
    ReadsAs (cs.flatMap Text.escapeChar) (cs.flatMap reread) := by
  induction cs with
  | nil => exact .nil
  | cons c rest ih => exact (readsAs_escapeChar c).append ih

theorem toList_quote (s : String) :
    (Text.quote s).toList = '"' :: (s.toList.flatMap Text.escapeChar ++ ['"']) := by
  rw [Text.quote, String.toList_ofList, Text.quoteChars, List.cons_append]

/-- A quoted text is one string, whatever follows. -/
theorem pieceAt_quoteChars (s rest : List Char) :
    pieceAt '"' (s.flatMap Text.escapeChar ++ '"' :: rest) =
      ⟨.token (.string (String.ofList (s.flatMap reread))), Text.quoteChars s, rest⟩ := by
  have closing : readQuoted '"' ('"' :: rest) = (some [], ['"'], rest) := by
    cases rest <;> rfl
  have quoted := readsAs_flatMap s ('"' :: rest) (by simp)
  rw [closing] at quoted
  show readString '"' _ = _
  simp [readString, quoted, Text.quoteChars]

/-! ### Literals -/

theorem toNat_of_inRange {c : Char} {low high : UInt32} (h : low ≤ c.val ∧ c.val ≤ high) :
    low.toNat ≤ c.toNat ∧ c.toNat ≤ high.toNat :=
  h.imp UInt32.le_iff_toNat_le.1 UInt32.le_iff_toNat_le.1

theorem isDigit_of_isIdentStart {c : Char} (h : isIdentStart c = true) : c.isDigit = false := by
  refine Bool.eq_false_iff.2 fun digit => ?_
  have digit : 48 ≤ c.toNat ∧ c.toNat ≤ 57 := toNat_of_inRange
    ((Bool.and_eq_true_iff.1 digit).imp of_decide_eq_true of_decide_eq_true)
  rcases Bool.or_eq_true_iff.1 h with letter | underscore
  · rcases Bool.or_eq_true_iff.1 letter with upper | lower
    · have upper : 65 ≤ c.toNat ∧ c.toNat ≤ 90 := toNat_of_inRange (of_decide_eq_true upper)
      omega
    · have lower : 97 ≤ c.toNat ∧ c.toNat ≤ 122 := toNat_of_inRange
        ((Bool.and_eq_true_iff.1 lower).imp of_decide_eq_true of_decide_eq_true)
      omega
  · cases beq_iff_eq.1 underscore
    exact absurd digit (by decide)

/-- A word is the longest match before a stop. -/
theorem pieceAt_word {word : String} (hw : IsWord word) (stop : Stops cs) :
    ∃ c rest, word.toList = c :: rest ∧ c ≠ '\n' ∧
      pieceAt c (rest ++ cs) = ⟨.token (wordKind word), c :: rest, cs⟩ := by
  obtain ⟨c, rest, hs, start⟩ := hw.start
  have parts := hw.parts
  rw [hs] at parts
  have blank : ¬(c = ' ' ∨ c = '\t' ∨ c = '\r') := by rintro (rfl | rfl | rfl) <;> cases start
  have comment : c ≠ '#' := by
    rintro rfl
    cases start
  have quote : ¬(c = '"' ∨ c = '\'') := by rintro (rfl | rfl) <;> cases start
  have digit : ¬c.isDigit = true := by simp [isDigit_of_isIdentStart start]
  have newline : c ≠ '\n' := by
    rintro rfl
    cases start
  refine ⟨c, rest, hs, newline, ?_⟩
  have taken : cs.takeWhile isIdentPart = [] := takeWhile_append_of_stop stop.identPart []
  have left : cs.dropWhile isIdentPart = cs := dropWhile_append_of_stop stop.identPart []
  rw [pieceAt, if_neg blank, if_neg comment, if_neg quote, if_neg digit, if_pos start, readWord,
    ← List.cons_append, List.takeWhile_append_of_pos parts, List.dropWhile_append_of_pos parts,
    taken, left, List.append_nil, ← hs, String.ofList_toList]

theorem wordKind_isPlain (word : String) : (wordKind word).isPlain = true := by
  unfold wordKind
  split <;> rfl

theorem scans_word {word : String} {rest : List Char} {ks : List TokenKind} (hw : IsWord word)
    (stop : Stops cs) (more : Scans cs ks rest) :
    Scans (word.toList ++ cs) (wordKind word :: ks) rest := by
  obtain ⟨c, xs, hs, newline, piece⟩ := pieceAt_word hw stop
  rw [hs]
  exact .piece newline piece (wordKind_isPlain word) more

theorem wordKind_spelling (k : Keyword) : wordKind k.spelling = .keyword k := by
  rw [wordKind, Keyword.ofSpelling?_spelling]

theorem isWord_spelling (k : Keyword) : IsWord k.spelling := by
  cases k
  all_goals exact ⟨⟨_, _, rfl, rfl⟩, List.all_eq_true.1 rfl⟩

theorem scans_keyword (k : Keyword) {rest : List Char} {ks : List TokenKind} (stop : Stops cs)
    (more : Scans cs ks rest) : Scans (k.spelling.toList ++ cs) (.keyword k :: ks) rest := by
  rw [← wordKind_spelling]
  exact scans_word (isWord_spelling k) stop more

end Lexer

open Lexer in
/-- A literal that reads back by itself does so in any text that goes on after a stop. -/
theorem Source.Literal.LexesBack.scans {l : Literal} {cs rest : List Char} {ks : List TokenKind}
    (h : l.LexesBack) (stop : Stops cs) (more : Scans cs ks rest) :
    Scans (l.text.toList ++ cs) (l.kind :: ks) rest := by
  obtain ⟨tokens, lexes, kinds⟩ := h
  cases l with
  | int value =>
    exact scans_number (fun _ => isNumberPart_of_mem_toString) lexes kinds rfl stop more
  | float value => exact scans_number (isNumberPart_of_mem_render value) lexes kinds rfl stop more
  | string text =>
    -- an escape that does not read back is excluded by the token that stands alone
    have alone := (piece_of_lex (toList_quote text) rfl lexes kinds).1
    rw [pieceAt_quoteChars] at alone
    have same : String.ofList (text.toList.flatMap reread) = text := by
      injection alone with kind
      injection kind
    have piece := pieceAt_quoteChars text.toList cs
    rw [same] at piece
    show Scans ((Text.quote text).toList ++ cs) _ _
    rw [toList_quote, List.cons_append, List.append_assoc]
    exact .piece (by decide) piece rfl more
  | bool value =>
    cases value
    · exact scans_keyword .falseWord stop more
    · exact scans_keyword .trueWord stop more
  | none => exact scans_keyword .noneWord stop more

end StagedMapping
