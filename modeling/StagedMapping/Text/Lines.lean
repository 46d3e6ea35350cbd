/-! Places in a text. An offset counts bytes of the UTF-8 form; `lineAt` turns one into
the line it falls on, the column in bytes and the text of that line. -/
namespace StagedMapping.Text

/-- Bytes of the UTF-8 form. -/
def byteLength : List Char → Nat
  | [] => 0
  | c :: rest => c.utf8Size + byteLength rest

/-- A place in a text: line and column count from one, the column in bytes. -/
structure Place where
  line : Nat
  column : Nat
  text : List Char
  deriving DecidableEq, Repr

/-- Walks up to `offset`: the number of the line reached, the offset at which it starts
and everything from its start. `position` is where the walk stands and `lineRest`
everything from the start of the line it is on. -/
def walkLines (offset line lineStart position : Nat) (lineRest : List Char) :
    List Char → Nat × Nat × List Char
  | [] => (line, lineStart, lineRest)
  | c :: rest =>
    if offset ≤ position then (line, lineStart, lineRest)
    else if c = '\n' then walkLines offset (line + 1) (position + 1) (position + 1) rest rest
    else walkLines offset line lineStart (position + c.utf8Size) lineRest rest

/-- The place of a byte offset; one past the end counts as the end. -/
def lineAt (source : List Char) (offset : Nat) : Place :=
  let offset := min offset (byteLength source)
  let (line, lineStart, lineRest) := walkLines offset 1 0 0 source source
  ⟨line, offset - lineStart + 1, lineRest.takeWhile (· ≠ '\n')⟩

theorem byteLength_append (a b : List Char) :
    byteLength (a ++ b) = byteLength a + byteLength b := by
  induction a with
  | nil => simp [byteLength]
  | cons c a ih => simp [byteLength, ih, Nat.add_assoc]

end StagedMapping.Text
