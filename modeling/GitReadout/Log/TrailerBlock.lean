import GitReadout.Log.Trailers
import GitReadout.Text.Blank
import GitReadout.Text.Offset
import GitReadout.Text.Split

/-!
# Trailer blocks

A block has one trailer to a line, a key and a value with a separator between them. Which characters
separate is a setting of the repository. They are tried in their order: the first that stands
somewhere after the beginning of the line, with more than white space before it, cuts the line. A
line that none of them cuts is no trailer.

* `cutAtSeparator?_first`, `cutAtSeparator?_of_not_mem`: where a separator cuts, if it does.
-/

set_option autoImplicit false

namespace GitReadout.Log.TrailerBlock

/-- The separators that hold when none are set. -/
def defaultSeparators : String := ":"

/-- The key and the value on the two sides of the first `separator`. -/
def cutAtSeparator? (line : List Char) (separator : Char) : Option (List Char × List Char) := do
  let offset ← (Text.offsetOf? separator line).filter (0 < ·)
  let (before, _) ← Text.cutAt? offset line
  let after ← Text.fromOffset? (offset + separator.utf8Size) line
  if Text.trim before = [] then none else some (Text.trim before, Text.trim after)

/-- The key and the value of a line. -/
def splitLine? (separators line : List Char) : Option (List Char × List Char) :=
  separators.findSome? (cutAtSeparator? line)

/-- The keys and values of a block, line by line. -/
def pairs (block separators : String) : List (String × String) :=
  (Text.lines block.toList).filterMap fun line =>
    (splitLine? separators.toList line).map fun (key, value) =>
      (String.ofList key, String.ofList value)

/-- The trailers of a block. -/
def parse (block separators : String) : Trailers :=
  .ofList (pairs block separators)

theorem cutAtSeparator?_first {separator : Char} {before : List Char} (h : separator ∉ before)
    (after : List Char) :
    cutAtSeparator? (before ++ separator :: after) separator =
      if Text.trim before = [] then none else some (Text.trim before, Text.trim after) := by
  by_cases hne : before = []
  · subst hne
    simp [cutAtSeparator?, Text.offsetOf?]
  · have hoffset : (Text.offsetOf? separator (before ++ separator :: after)).filter (0 < ·) =
        some (Text.byteSize before) := by
      rw [Text.offsetOf?_append h, Option.filter_some,
        if_pos (by simpa using Text.byteSize_pos_iff.2 hne)]
    simp [cutAtSeparator?, hoffset, Text.cutAt?_append, Text.fromOffset?_append_cons]

theorem cutAtSeparator?_append {separator : Char} {before : List Char} (h : separator ∉ before)
    (hne : Text.trim before ≠ []) (after : List Char) :
    cutAtSeparator? (before ++ separator :: after) separator =
      some (Text.trim before, Text.trim after) := by
  rw [cutAtSeparator?_first h, if_neg hne]

theorem cutAtSeparator?_of_not_mem {separator : Char} {line : List Char} (h : separator ∉ line) :
    cutAtSeparator? line separator = none := by
  simp [cutAtSeparator?, Text.offsetOf?, h]

end GitReadout.Log.TrailerBlock
