/-!
# White space

`isBlank` is the Unicode property White_Space, which decides where texts are trimmed and where words
end. It is wider than the blanks of ASCII (the no-break space and the ideographic space belong to
it) and does not hold the zero-width characters.
-/

set_option autoImplicit false

namespace GitReadout.Text

/-- The code points with the property White_Space, as ranges with both ends included. -/
def blankRanges : List (Nat × Nat) :=
  [(0x9, 0xD), (0x20, 0x20), (0x85, 0x85), (0xA0, 0xA0), (0x1680, 0x1680), (0x2000, 0x200A),
    (0x2028, 0x2029), (0x202F, 0x202F), (0x205F, 0x205F), (0x3000, 0x3000)]

/-- Whether `c` is a code point of one of the ranges. -/
def inRanges (ranges : List (Nat × Nat)) (c : Char) : Bool :=
  ranges.any fun r => r.1 ≤ c.toNat && c.toNat ≤ r.2

/-- White space. -/
def isBlank (c : Char) : Bool :=
  inRanges blankRanges c

/-- The white space of the table has 25 characters. -/
example : (blankRanges.map fun r => r.2 + 1 - r.1).sum = 25 := by decide

/-! ## Trimming -/

/-- `s` from its first character that is no white space. -/
def trimStart (s : List Char) : List Char :=
  s.dropWhile isBlank

/-- `s` up to its last character that is no white space. -/
def trimEnd (s : List Char) : List Char :=
  (s.reverse.dropWhile isBlank).reverse

/-- `s` without the white space at its two ends. -/
def trim (s : List Char) : List Char :=
  trimEnd (trimStart s)

@[simp] theorem trim_nil : trim [] = [] := rfl

/-- The runs of characters between white space. -/
def words (s : List Char) : List (List Char) :=
  (s.splitOnP isBlank).filter (· ≠ [])

@[simp] theorem words_nil : words [] = [] := by
  simp [words]

end GitReadout.Text
