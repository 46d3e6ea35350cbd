/-! Finding and replacing parts of a text. Occurrences are found from the left and do
not overlap; the empty part occurs before every character and at the end. -/
namespace StagedMapping.Text

/-- `part` occurs in the text. -/
def hasPart (part : List Char) : List Char → Bool
  | [] => part.isEmpty
  | c :: rest => part.isPrefixOf (c :: rest) || hasPart part rest

/-- `part` before every character and at the end. -/
def interleave (part : List Char) : List Char → List Char
  | [] => part
  | c :: rest => part ++ c :: interleave part rest

/-- Every occurrence of a nonempty `old`, replaced by `new`. -/
def replaceOccurrences (old new : List Char) (nonempty : old ≠ []) (cs : List Char) : List Char :=
  match cs with
  | [] => []
  | c :: rest =>
    if old.isPrefixOf (c :: rest) then
      new ++ replaceOccurrences old new nonempty ((c :: rest).drop old.length)
    else c :: replaceOccurrences old new nonempty rest
termination_by cs.length
decreasing_by
  · have := List.length_pos_iff.2 nonempty
    simp only [List.length_drop, List.length_cons]
    omega
  · simp

/-- Every occurrence of `old` replaced by `new`. -/
def replaceAll (old new cs : List Char) : List Char :=
  if h : old = [] then interleave new cs else replaceOccurrences old new h cs

/-- The text at the separators, which must not be empty to be found. -/
def splitAtPart (part : List Char) : List Char → Option (List Char × List Char)
  | [] => if part = [] then some ([], []) else none
  | c :: rest =>
    if part.isPrefixOf (c :: rest) then some ([], (c :: rest).drop part.length)
    else (splitAtPart part rest).map fun (before, after) => (c :: before, after)

end StagedMapping.Text
