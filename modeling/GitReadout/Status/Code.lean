import GitReadout.FileStatus
import GitReadout.Status.SideState

/-!
# Status codes of two letters

The code `XY` of a status entry gives the state in the index and the state in the working tree. A
conflict comes before all else, then a rename or copy whose source is known; otherwise the working
tree decides unless it is unmodified.

* `split?_eq_some_iff`: the codes of two letters.
* `FileStatus.ofLetters_of_isConflict`: the codes of conflicts decide alone.
-/

set_option autoImplicit false

namespace GitReadout

namespace Status.Code

/-- The two letters of a code; `none` unless there are exactly two. -/
def split? (code : String) : Option (Char × Char) :=
  match code.toList with
  | [x, y] => some (x, y)
  | _ => none

/-- The letters that the status stream uses on either side. -/
def isLetter (c : Char) : Bool :=
  ['.', 'M', 'T', 'A', 'D', 'R', 'C', 'U'].contains c

/-- Whether a code says that the path is not merged. -/
def isConflict (x y : Char) : Bool :=
  x = 'U' || y = 'U' || (x = 'A' && y = 'A') || (x = 'D' && y = 'D')

theorem split?_eq_some_iff {code : String} {x y : Char} :
    split? code = some (x, y) ↔ code.toList = [x, y] := by
  unfold split?
  split <;> simp_all

end Status.Code

open Status

namespace FileStatus

/-- The status that a path shows when only its state on one side counts. -/
def ofState : SideState → FileStatus
  | .added => added
  | .deleted => deleted
  | _ => modified

/-- The status of a path that is a rename or copy on either side. -/
def ofSource? (index worktree : SideState) (oldPath : String) : Option FileStatus :=
  if index = .renamed ∨ worktree = .renamed then some (renamed oldPath)
  else if index = .copied ∨ worktree = .copied then some (copied oldPath)
  else none

/-- The status of a path that is neither untracked nor in conflict. -/
def ofStates (index worktree : SideState) (oldPath : Option String) : FileStatus :=
  (oldPath.bind (ofSource? index worktree)).getD
    (ofState (if worktree = .unmodified then index else worktree))

/-- The status that a pair of letters stands for; letters without a meaning count as a
modification. -/
def ofLetters (x y : Char) (oldPath : Option String) : FileStatus :=
  if x = '?' ∧ y = '?' then untracked
  else if Code.isConflict x y then conflicted (.ofCodes x y)
  else match SideState.ofCode? x, SideState.ofCode? y with
    | some index, some worktree => ofStates index worktree oldPath
    | _, _ => modified

/-- The status that a code stands for; what is no pair of letters counts as a modification. -/
def ofStatusCode (code : String) (oldPath : Option String) : FileStatus :=
  match Code.split? code with
  | some (x, y) => ofLetters x y oldPath
  | none => modified

theorem ofLetters_of_isConflict {x y : Char} (h : Code.isConflict x y)
    (oldPath : Option String) : ofLetters x y oldPath = conflicted (.ofCodes x y) := by
  have hq : ¬(x = '?' ∧ y = '?') := by
    rintro ⟨rfl, rfl⟩
    exact absurd h (by decide)
  simp [ofLetters, hq, h]

end FileStatus

end GitReadout
