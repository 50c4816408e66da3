/-!
# What happened to a file

`FileStatus` is the closed set of things that can be said of a changed file. Only a rename or a copy
has a source, and only a conflict has two sides.

* `isConflicted_iff`: the statuses of conflicts.
-/

set_option autoImplicit false

namespace GitReadout

/-! ## Conflicts -/

/-- The ways in which git says two sides of a merge disagree. -/
inductive ConflictKind where
  | bothDeleted
  | addedByUs
  | deletedByThem
  | addedByThem
  | deletedByUs
  | bothAdded
  | bothModified
deriving DecidableEq

/-- A path on which two sides of a merge disagree. -/
structure Conflict where
  /-- The code of our side. -/
  us : Char
  /-- The code of their side. -/
  them : Char
  /-- What git calls this pair of codes, if it has a name for it. -/
  kind : Option ConflictKind
deriving DecidableEq

/-- What git calls a pair of codes. -/
def ConflictKind.ofCodes? : Char → Char → Option ConflictKind
  | 'D', 'D' => some .bothDeleted
  | 'A', 'U' => some .addedByUs
  | 'U', 'D' => some .deletedByThem
  | 'U', 'A' => some .addedByThem
  | 'D', 'U' => some .deletedByUs
  | 'A', 'A' => some .bothAdded
  | 'U', 'U' => some .bothModified
  | _, _ => none

/-- The conflict that a pair of codes stands for. -/
def Conflict.ofCodes (us them : Char) : Conflict :=
  ⟨us, them, ConflictKind.ofCodes? us them⟩

/-! ## Statuses -/

/-- What happened to a file. -/
inductive FileStatus where
  | added
  | modified
  | deleted
  | renamed (oldPath : String)
  | copied (oldPath : String)
  | conflicted (conflict : Conflict)
  | untracked
deriving DecidableEq

namespace FileStatus

/-- The source of a rename or copy. -/
def oldPath? : FileStatus → Option String
  | renamed oldPath | copied oldPath => some oldPath
  | _ => none

/-- Whether the two sides of a merge disagree about the file. -/
def isConflicted : FileStatus → Bool
  | conflicted _ => true
  | _ => false

theorem isConflicted_iff {status : FileStatus} :
    status.isConflicted ↔ ∃ conflict, status = conflicted conflict := by
  cases status <;> simp [isConflicted]

end FileStatus

end GitReadout
