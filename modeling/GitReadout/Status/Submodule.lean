import GitReadout.Text.Offset

/-!
# Submodules

The third field of a status entry has four bytes: `N...` for a path that is no submodule, or `S` and
three flags, each its letter or a dot.
-/

set_option autoImplicit false

namespace GitReadout.Status

/-- What changed in a submodule. -/
structure Submodule where
  newCommit : Bool
  modifiedFiles : Bool
  untrackedFiles : Bool
deriving DecidableEq

namespace Submodule

/-- A flag is its letter when it is set and a dot when it is not. -/
def readFlag? (letter byte : UInt8) : Option Bool :=
  if byte = '.'.toUInt8 then some false
  else if byte = letter then some true
  else none

/-- Three flags. -/
def readFlags? (commit changes files : UInt8) : Option Submodule := do
  let newCommit ← readFlag? 'C'.toUInt8 commit
  let modifiedFiles ← readFlag? 'M'.toUInt8 changes
  let untrackedFiles ← readFlag? 'U'.toUInt8 files
  return { newCommit, modifiedFiles, untrackedFiles }

/-- The submodule that a field describes, `some none` for a path that is none. -/
def readField? (field : List Char) : Option (Option Submodule) :=
  match Text.bytes field with
  | [kind, commit, changes, files] =>
    if kind = 'N'.toUInt8 then
      if [commit, changes, files].all (· = '.'.toUInt8) then some none else none
    else if kind = 'S'.toUInt8 then
      (readFlags? commit changes files).map some
    else none
  | _ => none

end Submodule

end GitReadout.Status
