import GitReadout.Text.Blank

/-!
# Numerals

Counts are written in ASCII digits (`natOfDigits?`); `unsigned?` also takes one leading plus sign
and refuses what its bound excludes. A similarity score may be written in the decimal digits of any
script (`isDecimalDigit`), which are recognised but never read as a number.

* `isDecimalDigit_of_isDigit`: the ASCII digits are decimal digits.
-/

set_option autoImplicit false

namespace GitReadout.Text

/-! ## Decimal digits of every script -/

/-- The first code points of the runs of ten that make up the general category Nd. -/
def decimalZeros : List Nat :=
  [0x30, 0x660, 0x6F0, 0x7C0, 0x966, 0x9E6, 0xA66, 0xAE6, 0xB66, 0xBE6, 0xC66, 0xCE6, 0xD66, 0xDE6,
    0xE50, 0xED0, 0xF20, 0x1040, 0x1090, 0x17E0, 0x1810, 0x1946, 0x19D0, 0x1A80, 0x1A90, 0x1B50,
    0x1BB0, 0x1C40, 0x1C50, 0xA620, 0xA8D0, 0xA900, 0xA9D0, 0xA9F0, 0xAA50, 0xABF0, 0xFF10, 0x104A0,
    0x10D30, 0x10D40, 0x11066, 0x110F0, 0x11136, 0x111D0, 0x112F0, 0x11450, 0x114D0, 0x11650,
    0x116C0, 0x116D0, 0x116DA, 0x11730, 0x118E0, 0x11950, 0x11BF0, 0x11C50, 0x11D50, 0x11DA0,
    0x11F50, 0x16130, 0x16A60, 0x16AC0, 0x16B50, 0x16D70, 0x1CCF0, 0x1D7CE, 0x1D7D8, 0x1D7E2,
    0x1D7EC, 0x1D7F6, 0x1E140, 0x1E2F0, 0x1E4F0, 0x1E5F1, 0x1E950, 0x1FBF0]

/-- Whether `c` is a decimal digit of some script. -/
def isDecimalDigit (c : Char) : Bool :=
  decimalZeros.any fun first => first ≤ c.toNat && c.toNat < first + 10

theorem isDecimalDigit_of_isDigit {c : Char} (h : c.isDigit = true) : isDecimalDigit c = true := by
  simp only [Char.isDigit, Bool.and_eq_true, decide_eq_true_eq] at h
  have hlow : 48 ≤ c.toNat := UInt32.le_iff_toNat_le.1 h.1
  have hhigh : c.toNat < 58 := Nat.lt_succ_of_le (UInt32.le_iff_toNat_le.1 h.2)
  simp [isDecimalDigit, decimalZeros, hlow, hhigh]

/-! ## Counts -/

/-- The number that a run of ASCII digits writes. -/
def natOfDigits (s : List Char) : Nat :=
  s.foldl (fun n c => 10 * n + (c.toNat - '0'.toNat)) 0

/-- The number that `s` writes, if it is a non-empty run of ASCII digits. -/
def natOfDigits? (s : List Char) : Option Nat :=
  if s ≠ [] ∧ s.all Char.isDigit then some (natOfDigits s) else none

/-- The number up to `limit` that `s` writes in ASCII digits, after one plus sign or none. -/
def unsigned? (limit : Nat) (s : List Char) : Option Nat :=
  let digits := match s with
    | '+' :: rest => rest
    | s => s
  (natOfDigits? digits).filter (· ≤ limit)

/-- The largest number of 32 bits. -/
def maxUnsigned32 : Nat := 4294967295

/-- The largest number of 64 bits. -/
def maxUnsigned64 : Nat := 18446744073709551615

theorem le_of_unsigned?_eq_some {limit n : Nat} {s : List Char} (h : unsigned? limit s = some n) :
    n ≤ limit := by
  unfold unsigned? at h
  simpa using (Option.filter_eq_some_iff.1 h).2

end GitReadout.Text
