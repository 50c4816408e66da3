import GitReadout.Failure
import GitReadout.Text.Offset

/-!
# Object names

A commit is named by 4 to 64 hexadecimal digits, in full or abbreviated. Letters are kept in lower
case, so two spellings of one name are equal.

* `toNat_of_isHexDigit`: the code points of the digits.
* `parse_eq_ok_iff`, `parse_eq_error_iff`: what is read, and as what.
-/

set_option autoImplicit false

namespace GitReadout

/-- The name of a commit. -/
structure ObjectName where
  value : String
deriving DecidableEq

namespace ObjectName

/-- The digits of base sixteen, in either case. -/
def isHexDigit (c : Char) : Bool :=
  c.isDigit || ('a' ≤ c && c ≤ 'f') || ('A' ≤ c && c ≤ 'F')

/-- An abbreviated name has at least four digits; the longest full name has 64. -/
def isName (s : List Char) : Bool :=
  4 ≤ s.length && s.length ≤ 64 && s.all isHexDigit

/-- The commit that `text` names. -/
def parse (text : String) : Except Failure ObjectName :=
  if isName text.toList then
    .ok ⟨String.ofList (text.toList.map Char.toLower)⟩
  else
    .error (.badObjectName text)

/-- Whether the name is a full one: 40 or 64 digits. -/
def isFull (name : ObjectName) : Bool :=
  name.value.utf8ByteSize = 40 || name.value.utf8ByteSize = 64

/-- The first `n` bytes of the name, or all of it if it is shorter. There is no such text when the
cut would fall inside a character, which no name allows. -/
def abbreviate? (name : ObjectName) (n : Nat) : Option String :=
  (Text.cutAt? (min n name.value.utf8ByteSize) name.value.toList).map fun cut => String.ofList cut.1

theorem toNat_of_isHexDigit {c : Char} (h : isHexDigit c = true) :
    48 ≤ c.toNat ∧ c.toNat ≤ 57 ∨ 97 ≤ c.toNat ∧ c.toNat ≤ 102 ∨
      65 ≤ c.toNat ∧ c.toNat ≤ 70 := by
  simpa [isHexDigit, Char.isDigit, Char.le_def, UInt32.le_iff_toNat_le, or_assoc] using h

theorem parse_eq_ok_iff {text : String} {name : ObjectName} :
    parse text = .ok name ↔
      isName text.toList ∧ name.value = String.ofList (text.toList.map Char.toLower) := by
  unfold parse
  split
  · rename_i h
    simp only [h, Except.ok.injEq, true_and]
    exact ⟨fun e => e ▸ rfl, fun e => by cases name; simp_all⟩
  · rename_i h
    simp [h]

theorem parse_eq_error_iff {text : String} {e : Failure} :
    parse text = .error e ↔ ¬isName text.toList ∧ e = .badObjectName text := by
  unfold parse
  split
  · rename_i h
    simp [h]
  · rename_i h
    simp [h, eq_comm]

end ObjectName

end GitReadout
