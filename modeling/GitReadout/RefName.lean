import GitReadout.Failure
import GitReadout.Text.Split

/-!
# Reference names

The name of a branch follows git's rules for references. The rules look at the ends of the whole
name, at its characters, and at pairs of neighbouring characters.

* `parse_eq_ok_iff`: exactly the allowed names are read, and each is kept as it is.
-/

set_option autoImplicit false

namespace GitReadout

/-- The name of a branch. -/
structure RefName where
  value : String
deriving DecidableEq

namespace RefName

/-- Characters that no name may hold: control characters of ASCII, the space, and those that git
uses for revision expressions and patterns. -/
def isForbidden (c : Char) : Bool :=
  c.toNat < 0x20 || c.toNat = 0x7F || [' ', '~', '^', ':', '\\', '*', '?', '['].contains c

/-- Pairs of neighbours that no name may hold. -/
def forbiddenPairs : List (Char × Char) :=
  [('.', '.'), ('@', '{'), ('/', '/'), ('/', '.')]

/-- How no name may begin. -/
def isForbiddenStart (c : Char) : Bool :=
  ['-', '.', '/'].contains c

/-- Whether no name may end like this. -/
def hasForbiddenEnd (name : List Char) : Bool :=
  name.getLast?.any ['.', '/'].contains || ".lock".toList.isSuffixOf name

/-- The rules for reference names. -/
def isAllowed (name : List Char) : Bool :=
  name ≠ [] && name ≠ ['@'] && !name.head?.any isForbiddenStart && !hasForbiddenEnd name &&
    !name.any isForbidden && !forbiddenPairs.any fun pair => Text.hasPair pair.1 pair.2 name

/-- The branch that `text` names. -/
def parse (text : String) : Except Failure RefName :=
  if isAllowed text.toList then .ok ⟨text⟩ else .error (.badRefName text)

theorem parse_eq_ok_iff {text : String} {branch : RefName} :
    parse text = .ok branch ↔ isAllowed text.toList ∧ branch.value = text := by
  unfold parse
  split
  · rename_i h
    simp only [h, Except.ok.injEq, true_and]
    exact ⟨fun e => e ▸ rfl, fun e => by cases branch; simp_all⟩
  · rename_i h
    simp [h]

end RefName

end GitReadout
