import StagedMapping.Proofs.TokenPlaces

/-! Lines and offsets. The place of an offset is on the line that as many line feeds stand
before, and its column leads from the start of that line back to the offset (`Place.IsOf`). The
walk that finds it passes whole lines (`walkLines_passes`), so a scan for the start of the line
with slices of the text finds the same place, and none of these slices leaves a character
boundary (`slicedAt?`). Main statement: `lineAt_inverts_offset`. -/
namespace StagedMapping.Text

/-! ### Slices -/

/-- The text before an offset and the text after it. There are none if the offset lies inside a
character, or past the end. -/
def splitAtByte? : Nat → List Char → Option (List Char × List Char)
  | 0, text => some ([], text)
  | _ + 1, [] => none
  | n + 1, c :: rest =>
    if c.utf8Size ≤ n + 1 then
      (splitAtByte? (n + 1 - c.utf8Size) rest).map fun parts => (c :: parts.1, parts.2)
    else none

/-- The text between two offsets. -/
def slice? (text : List Char) (start stop : Nat) : Option (List Char) := do
  let (_, after) ← splitAtByte? start text
  if start ≤ stop then (splitAtByte? (stop - start) after).map (·.1) else none

theorem splitAtByte?_byteLength (before after : List Char) :
    splitAtByte? (byteLength before) (before ++ after) = some (before, after) := by
  induction before with
  | nil => rw [List.nil_append, byteLength, splitAtByte?]
  | cons c before ih =>
    obtain ⟨n, hn⟩ : ∃ n, byteLength (c :: before) = n + 1 :=
      Nat.exists_eq_succ_of_ne_zero (by have := c.utf8Size_pos; simp only [byteLength]; omega)
    have hsize : n + 1 - c.utf8Size = byteLength before := by simp only [byteLength] at hn; omega
    have hle : c.utf8Size ≤ n + 1 := by simp only [byteLength] at hn; omega
    rw [hn, List.cons_append, splitAtByte?, if_pos hle, hsize, ih]
    rfl

/-- A text is split nowhere but between two characters, or at an end. -/
theorem splitAtByte?_eq_some_iff {n : Nat} {text before after : List Char} :
    splitAtByte? n text = some (before, after) ↔ text = before ++ after ∧ n = byteLength before := by
  constructor
  · intro h
    fun_induction splitAtByte? n text generalizing before with
    | case1 text => cases h; exact ⟨rfl, rfl⟩
    | case2 n => cases h
    | case3 n c rest hle ih =>
      obtain ⟨parts, hparts, he⟩ := Option.map_eq_some_iff.1 h
      cases he
      obtain ⟨hrest, hsize⟩ := ih hparts
      refine ⟨by rw [hrest, List.cons_append], ?_⟩
      rw [byteLength, ← hsize]
      omega
    | case4 n c rest hle => cases h
  · rintro ⟨rfl, rfl⟩
    exact splitAtByte?_byteLength before after

theorem slice?_append (before middle after : List Char) :
    slice? (before ++ (middle ++ after)) (byteLength before)
      (byteLength before + byteLength middle) = some middle := by
  simp only [slice?, splitAtByte?_byteLength, Option.bind_eq_bind, Option.bind_some,
    Nat.le_add_right, if_true, Nat.add_sub_cancel_left, Option.map_some]

/-! ### Lines -/

/-- The characters of a text with the offsets at which they start. -/
def placed (position : Nat) : List Char → List (Nat × Char)
  | [] => []
  | c :: rest => (position, c) :: placed (position + c.utf8Size) rest

def isFeed (c : Char) : Bool := c = '\n'

/-- The line feeds that start before an offset. -/
def feedsBefore (source : List Char) (offset : Nat) : Nat :=
  (placed 0 source).countP fun x => decide (x.1 < offset) && isFeed x.2

/-- The offset of the first line feed. -/
def firstFeed? (text : List Char) : Option Nat := ((placed 0 text).find? (isFeed ·.2)).map (·.1)

/-- The lines of a text without their line feeds. -/
def lines (source : List Char) : List (List Char) := source.splitOn '\n'

/-- Some lines, each with its line feed. -/
def fed (ls : List (List Char)) : List Char := ls.flatMap (· ++ ['\n'])

/-- The offset at which a line starts that `n` lines stand before. -/
def startOf (source : List Char) (n : Nat) : Nat := byteLength (fed ((lines source).take n))

/-- The place of an offset inside a text. -/
structure Place.IsOf (p : Place) (source : List Char) (offset : Nat) : Prop where
  line : p.line = feedsBefore source offset + 1
  text : (lines source)[p.line - 1]? = some p.text
  first : 1 ≤ p.column
  last : p.column ≤ byteLength p.text + 1
  inverts : startOf source (p.line - 1) + (p.column - 1) = offset
  start : IsBoundary source (startOf source (p.line - 1))
  stop : IsBoundary source (startOf source (p.line - 1) + byteLength p.text)

/-- The place of an offset by a scan of the characters before it, for the line and its start,
and by slices: the text from there, and the line in it. There is none if a slice leaves a
character boundary, or if the line starts after the offset. -/
def slicedAt? (source : List Char) (offset : Nat) : Option Place := do
  let offset := min offset (byteLength source)
  let scanned := (placed 0 source).takeWhile fun x => decide (x.1 < offset)
  let (line, start) := scanned.foldl
    (fun found x => if isFeed x.2 then (found.1 + 1, x.1 + 1) else found) (1, 0)
  let (_, rest) ← splitAtByte? start source
  let stop := ((firstFeed? rest).map (start + ·)).getD (byteLength source)
  let text ← slice? source start stop
  if start ≤ offset then some ⟨line, offset - start + 1, text⟩ else none

theorem fed_cons (l : List Char) (ls : List (List Char)) : fed (l :: ls) = l ++ '\n' :: fed ls := by
  rw [fed, List.flatMap_cons, List.append_assoc]
  rfl

theorem byteLength_fed_cons (l : List Char) (ls : List (List Char)) :
    byteLength (fed (l :: ls)) = byteLength l + 1 + byteLength (fed ls) := by
  rw [fed_cons, byteLength_append, Nat.add_assoc]
  rfl

theorem lines_fed {ls : List (List Char)} (h : ∀ l ∈ ls, '\n' ∉ l) (rest : List Char) :
    lines (fed ls ++ rest) = ls ++ lines rest := by
  induction ls with
  | nil => rfl
  | cons l ls ih =>
    obtain ⟨hl, hls⟩ := List.forall_mem_cons.1 h
    have hfree : ∀ c ∈ l, (c == '\n') = false := fun c hc => beq_false_of_ne fun he => hl (he ▸ hc)
    rw [fed_cons, List.append_assoc, List.cons_append, lines, List.splitOn_eq_splitOnP,
      List.splitOnP_append_cons_of_forall_mem hfree '\n' rfl, ← List.splitOn_eq_splitOnP]
    exact congrArg (l :: ·) (ih hls)

theorem lines_head (source : List Char) :
    (lines source)[0]? = some (source.takeWhile (· ≠ '\n')) := by
  induction source with
  | nil => rfl
  | cons c rest ih =>
    rw [lines, List.splitOn_eq_splitOnP, List.splitOnP_cons_eq_if_modifyHead]
    rw [lines, List.splitOn_eq_splitOnP] at ih
    by_cases h : c = '\n'
    · simp [h]
    · simp [h, ih]

theorem startOf_fed {ls : List (List Char)} (h : ∀ l ∈ ls, '\n' ∉ l) (rest : List Char) :
    startOf (fed ls ++ rest) ls.length = byteLength (fed ls) := by
  rw [startOf, lines_fed h, List.take_left]

/-! ### The walk -/

/-- The walk has read a part of a line, and a line feed is not in it. -/
structure OnLine (start position : Nat) (lineRest front rest : List Char) : Prop where
  split : lineRest = front ++ rest
  free : '\n' ∉ front
  position : position = start + byteLength front

section
variable {offset line start position : Nat} {lineRest front rest : List Char}

theorem OnLine.begin (start : Nat) (rest : List Char) : OnLine start start rest [] rest :=
  ⟨rfl, List.not_mem_nil, rfl⟩

theorem OnLine.next {c : Char} (h : OnLine start position lineRest front (c :: rest))
    (hc : c ≠ '\n') : OnLine start (position + c.utf8Size) lineRest (front ++ [c]) rest where
  split := by rw [h.split, List.append_assoc, List.cons_append, List.nil_append]
  free := by
    rw [List.mem_append, List.mem_singleton]
    exact fun hmem => hmem.elim h.free fun he => hc he.symm
  position := by
    rw [byteLength_append, h.position, Nat.add_assoc]
    rfl

/-- The line goes on at least to where the walk is. -/
theorem OnLine.le_stop (h : OnLine start position lineRest front rest) :
    position ≤ start + byteLength (lineRest.takeWhile (· ≠ '\n')) := by
  have hfree : ∀ c ∈ front, decide (c ≠ '\n') = true :=
    fun c hc => decide_eq_true fun he => h.free (by rwa [he] at hc)
  rw [h.split, List.takeWhile_append_of_pos hfree, byteLength_append, h.position]
  omega

/-- The walk passes whole lines, and stops at the start of one. -/
theorem walkLines_passes (offset line : Nat)
    (h : OnLine start position lineRest front rest) :
    ∃ passed : List (List Char), (∀ l ∈ passed, '\n' ∉ l) ∧
      ∃ left, lineRest = fed passed ++ left ∧
        walkLines offset line start position lineRest rest =
          (line + passed.length, start + byteLength (fed passed), left) := by
  fun_induction walkLines offset line start position lineRest rest generalizing front with
  | case1 | case2 => exact ⟨[], List.forall_mem_nil _, _, rfl, rfl⟩
  | case3 line start position lineRest rest _ ih =>
    obtain ⟨passed, hpassed, left, hleft, hwalk⟩ := ih (.begin _ rest)
    refine ⟨front :: passed, List.forall_mem_cons.2 ⟨h.free, hpassed⟩, left, ?_, ?_⟩
    · rw [h.split, hleft, fed_cons, List.append_assoc, List.cons_append]
    · rw [hwalk, h.position, List.length_cons, byteLength_fed_cons]
      refine Prod.ext ?_ (Prod.ext ?_ rfl) <;> dsimp only <;> omega
  | case4 line start position lineRest c rest _ hc ih => exact ih (h.next hc)

/-- The line starts at the offset or before it. -/
theorem walkLines_start_le (line position : Nat) (lineRest rest : List Char)
    (h : start ≤ offset) :
    (walkLines offset line start position lineRest rest).2.1 ≤ offset := by
  fun_induction walkLines offset line start position lineRest rest with
  | case1 | case2 => exact h
  | case3 line start position lineRest rest hposition ih => exact ih (Nat.lt_of_not_le hposition)
  | case4 line start position lineRest c rest hposition hc ih => exact ih h

/-- The line does not end before the offset. -/
theorem le_walkLines_stop (line : Nat) (h : OnLine start position lineRest front rest)
    (hoffset : offset ≤ position + byteLength rest) :
    offset ≤ (walkLines offset line start position lineRest rest).2.1 +
      byteLength ((walkLines offset line start position lineRest rest).2.2.takeWhile
        (· ≠ '\n')) := by
  fun_induction walkLines offset line start position lineRest rest generalizing front with
  | case1 line start position lineRest => exact Nat.le_trans hoffset h.le_stop
  | case2 line start position lineRest c rest hle => exact Nat.le_trans hle h.le_stop
  | case3 line start position lineRest rest hle ih =>
    rw [byteLength, ← Nat.add_assoc] at hoffset
    exact ih (.begin _ rest) hoffset
  | case4 line start position lineRest c rest hle hc ih =>
    rw [byteLength, ← Nat.add_assoc] at hoffset
    exact ih (h.next hc) hoffset

theorem placed_le {x : Nat × Char} (hx : x ∈ placed position rest) : position ≤ x.1 := by
  induction rest generalizing position with
  | nil => cases hx
  | cons c rest ih =>
    rcases List.mem_cons.1 hx with rfl | hx
    · exact Nat.le_refl position
    · exact Nat.le_of_add_right_le (ih hx)

/-- The number of the line counts the line feeds before the offset. -/
theorem walkLines_line (offset line start position : Nat) (lineRest rest : List Char) :
    (walkLines offset line start position lineRest rest).1 = line +
      (placed position rest).countP fun x => decide (x.1 < offset) && isFeed x.2 := by
  fun_induction walkLines offset line start position lineRest rest with
  | case1 => rfl
  | case2 line start position lineRest c rest h =>
    have hnone : (placed position (c :: rest)).countP
        (fun x => decide (x.1 < offset) && isFeed x.2) = 0 := by
      refine List.countP_eq_zero.2 fun x hx hcounted => ?_
      have hbefore := of_decide_eq_true (Bool.and_eq_true_iff.1 hcounted).1
      exact Nat.not_lt.2 (Nat.le_trans h (placed_le hx)) hbefore
    rw [hnone]
    rfl
  | case3 line start position lineRest rest h ih =>
    rw [ih, placed, List.countP_cons_of_pos (by simpa [isFeed] using h), Nat.add_right_comm,
      Nat.add_assoc]
    rfl
  | case4 line start position lineRest c rest h hc ih =>
    rw [ih, placed, List.countP_cons_of_neg (by simp [isFeed, hc])]

/-- A scan of the characters before the offset finds the same line. -/
theorem scan_eq_walkLines (offset line start position : Nat) (lineRest rest : List Char) :
    ((placed position rest).takeWhile fun x => decide (x.1 < offset)).foldl
      (fun found x => if isFeed x.2 then (found.1 + 1, x.1 + 1) else found) (line, start) =
    ((walkLines offset line start position lineRest rest).1,
      (walkLines offset line start position lineRest rest).2.1) := by
  fun_induction walkLines offset line start position lineRest rest with
  | case1 => rfl
  | case2 line start position lineRest c rest h =>
    rw [placed, List.takeWhile_cons_of_neg (by simpa using h)]
    rfl
  | case3 line start position lineRest rest h ih =>
    rw [placed, List.takeWhile_cons_of_pos (by simpa using h), List.foldl_cons]
    exact ih
  | case4 line start position lineRest c rest h hc ih =>
    rw [placed, List.takeWhile_cons_of_pos (by simpa using h), List.foldl_cons,
      if_neg (by simpa [isFeed] using hc)]
    exact ih

end

/-! ### The place of an offset -/

/-- The first line feed of a text ends its first line. -/
theorem firstFeed?_getD (text : List Char) :
    (firstFeed? text).getD (byteLength text) = byteLength (text.takeWhile (· ≠ '\n')) := by
  have hfrom (position : Nat) : (((placed position text).find? (isFeed ·.2)).map (·.1)).getD
      (position + byteLength text) = position + byteLength (text.takeWhile (· ≠ '\n')) := by
    induction text generalizing position with
    | nil => rfl
    | cons c rest ih =>
      by_cases h : c = '\n'
      · simp [placed, isFeed, h, byteLength]
      · have hnext := ih (position + c.utf8Size)
        simpa [placed, isFeed, h, byteLength, Nat.add_assoc] using hnext
  simpa [firstFeed?] using hfrom 0

/-- Lines that stand before the one an offset is on, and the text from there. -/
structure Before (source : List Char) (offset : Nat) (passed : List (List Char))
    (left : List Char) : Prop where
  split : source = fed passed ++ left
  free : ∀ l ∈ passed, '\n' ∉ l
  start : byteLength (fed passed) ≤ offset
  stop : offset ≤ byteLength (fed passed) + byteLength (left.takeWhile (· ≠ '\n'))
  walk : walkLines offset 1 0 0 source source = (1 + passed.length, byteLength (fed passed), left)

theorem exists_before {source : List Char} {offset : Nat} (h : offset ≤ byteLength source) :
    ∃ passed left, Before source offset passed left := by
  have hline : OnLine 0 0 source [] source := .begin 0 source
  obtain ⟨passed, hfree, left, hsplit, hwalk⟩ := walkLines_passes offset 1 hline
  have hstart := walkLines_start_le 1 0 source source (Nat.zero_le offset)
  have hwhole : offset ≤ 0 + byteLength source := by rwa [Nat.zero_add]
  have hstop := le_walkLines_stop 1 hline hwhole
  rw [Nat.zero_add] at hwalk
  rw [hwalk] at hstart hstop
  exact ⟨passed, left, hsplit, hfree, hstart, hstop, hwalk⟩

namespace Before
variable {source : List Char} {offset : Nat} {passed : List (List Char)} {left : List Char}

theorem startOf_eq (h : Before source offset passed left) :
    startOf source (1 + passed.length - 1) = byteLength (fed passed) := by
  rw [Nat.add_sub_cancel_left, h.split, startOf_fed h.free]

theorem restAt (h : Before source offset passed left) :
    RestAt source (byteLength (fed passed)) left := ⟨fed passed, h.split, rfl⟩

/-- The place that the walk finds. -/
theorem isOf (h : Before source offset passed left) :
    Place.IsOf ⟨1 + passed.length, offset - byteLength (fed passed) + 1,
      left.takeWhile (· ≠ '\n')⟩ source offset where
  line := by
    have hline := walkLines_line offset 1 0 0 source source
    rw [h.walk] at hline
    exact hline.trans (Nat.add_comm ..)
  text := by
    rw [Nat.add_sub_cancel_left, h.split, lines_fed h.free,
      List.getElem?_append_right (Nat.le_refl _), Nat.sub_self, lines_head]
  first := Nat.le_add_left 1 _
  last := by
    have := h.stop
    dsimp only
    omega
  inverts := by
    have := h.start
    rw [h.startOf_eq, Nat.add_sub_cancel]
    omega
  start := h.startOf_eq ▸ h.restAt.boundary
  stop := by
    have hrest := h.restAt
    rw [← List.takeWhile_append_dropWhile (p := (· ≠ '\n')) (l := left)] at hrest
    exact h.startOf_eq ▸ hrest.advance.boundary

/-- What the scan and the slices find. -/
theorem slicedAt?_eq (h : Before source offset passed left) (hoffset : offset ≤ byteLength source) :
    slicedAt? source offset = some ⟨1 + passed.length, offset - byteLength (fed passed) + 1,
      left.takeWhile (· ≠ '\n')⟩ := by
  have hscan := scan_eq_walkLines offset 1 0 0 source source
  rw [h.walk] at hscan
  have hstop : ((firstFeed? left).map (byteLength (fed passed) + ·)).getD (byteLength source) =
      byteLength (fed passed) + byteLength (left.takeWhile (· ≠ '\n')) := by
    rw [h.split, byteLength_append, ← firstFeed?_getD]
    exact Option.getD_map ..
  have hrest : splitAtByte? (byteLength (fed passed)) source = some (fed passed, left) :=
    splitAtByte?_eq_some_iff.2 ⟨h.split, rfl⟩
  have htext : slice? source (byteLength (fed passed))
      (byteLength (fed passed) + byteLength (left.takeWhile (· ≠ '\n'))) =
      some (left.takeWhile (· ≠ '\n')) := by
    have hslice := slice?_append (fed passed) (left.takeWhile (· ≠ '\n'))
      (left.dropWhile (· ≠ '\n'))
    rwa [List.takeWhile_append_dropWhile, ← h.split] at hslice
  simp only [slicedAt?, Nat.min_eq_left hoffset, hscan, hrest, hstop, htext, h.start,
    Option.bind_eq_bind, Option.bind_some, if_true]

end Before

/-- The place of an offset inverts it: as many line feeds stand before the offset as lines
before its line, the text is that of the line, and the column leads from the start of the line to
the offset, over the text of the line or to its end. The line starts and stops between two
characters, and it starts at the offset or before it, so a scan with slices of the text finds the
same place. An offset past the end counts as the end. -/
theorem lineAt_inverts_offset (source : List Char) (offset : Nat) :
    (lineAt source offset).IsOf source (min offset (byteLength source)) ∧
      slicedAt? source offset = some (lineAt source offset) := by
  have hoffset : min offset (byteLength source) ≤ byteLength source := Nat.min_le_right ..
  obtain ⟨passed, left, h⟩ := exists_before hoffset
  have hplace : lineAt source offset = ⟨1 + passed.length,
      min offset (byteLength source) - byteLength (fed passed) + 1,
      left.takeWhile (· ≠ '\n')⟩ := by
    rw [lineAt, h.walk]
  have hclamped : slicedAt? source offset = slicedAt? source (min offset (byteLength source)) := by
    simp only [slicedAt?, Nat.min_eq_left hoffset]
  rw [hplace, hclamped]
  exact ⟨h.isOf, h.slicedAt?_eq hoffset⟩

/-- An offset inside a character of two bytes. -/
example : lineAt ['a', '\n', 'é', '\n'] 3 = ⟨2, 2, ['é']⟩ := by decide

end StagedMapping.Text
