import GitReadout.Status.Code
import GitReadout.Status.Item

/-!
# Changed files of the working tree

An entry of a status output becomes a `FileChange`, unless it is not shown: ignored paths are not,
and neither is a path that was added to the index and then deleted from the working tree, since it
exists nowhere any more.

* `Entry.change?_of_ignored`: ignored paths are not shown.
* `Entry.path_eq_of_change?`: a change has the path of its entry.
-/

set_option autoImplicit false

namespace GitReadout.Status

/-- A changed file of the working tree. -/
structure FileChange where
  path : String
  status : FileStatus
  index : SideState
  worktree : SideState
  submodule : Option Submodule
deriving DecidableEq

/-- Whether the index holds a change of the path. -/
def FileChange.isStaged (change : FileChange) : Bool :=
  match change.index with
  | .unmodified | .untracked | .ignored => false
  | _ => true

namespace Entry

/-- The states that an entry gives for the index and the working tree. -/
def states? (entry : Entry) : Option (SideState × SideState) :=
  match entry.kind with
  | .ignored => none
  | .untracked => some (.untracked, .untracked)
  | _ => do
    let (x, y) ← Code.split? entry.code
    return (← SideState.ofCode? x, ← SideState.ofCode? y)

/-- The status that an entry shows. -/
def status (entry : Entry) : FileStatus :=
  match entry.kind with
  | .untracked => .untracked
  | _ => .ofStatusCode entry.code entry.oldPath?

/-- The change that an entry describes; `none` when it is not shown. -/
def change? (entry : Entry) : Option FileChange :=
  match entry.states? with
  | none | some (.added, .deleted) => none
  | some (index, worktree) =>
    some ⟨entry.path, entry.status, index, worktree, entry.submodule⟩

theorem change?_of_ignored {entry : Entry} (h : entry.kind = .ignored) : entry.change? = none := by
  simp [change?, states?, h]

theorem path_eq_of_change? {entry : Entry} {change : FileChange}
    (h : entry.change? = some change) : change.path = entry.path := by
  unfold change? at h
  split at h
  · cases h
  · cases h
  · cases h
    rfl

end Entry

end GitReadout.Status
