import Std.Data.ExtTreeMap
import GitReadout.Status.FileChange

/-!
# The changed files of a working tree

A `WorkingTree` holds one change for each path, in the order in which the paths were first inserted.
A later change of a path takes the place of the earlier one. The position of each path is kept
beside the files, so that a path is found without a search.
-/

set_option autoImplicit false

namespace GitReadout.Status

/-- Changes, one for each path, in order of the first insertion of each path. -/
structure WorkingTree where
  files : Array FileChange := #[]
  /-- Where in `files` each path stands. -/
  positions : Std.ExtTreeMap String Nat := ∅
deriving DecidableEq

namespace WorkingTree

def empty : WorkingTree := {}

/-- Puts a change in the place of the earlier one of its path, or at the end. -/
def insert (tree : WorkingTree) (change : FileChange) : WorkingTree :=
  match tree.positions[change.path]? with
  | some position => { tree with files := tree.files.setIfInBounds position change }
  | none =>
    { files := tree.files.push change
      positions := tree.positions.insert change.path tree.files.size }

/-- The change of a path. -/
def get? (tree : WorkingTree) (path : String) : Option FileChange := do
  tree.files[← tree.positions[path]?]?

/-- The working tree after changes have been inserted one by one. -/
def ofList (changes : List FileChange) : WorkingTree :=
  changes.foldl insert empty

def toList (tree : WorkingTree) : List FileChange :=
  tree.files.toList

def size (tree : WorkingTree) : Nat :=
  tree.files.size

def isEmpty (tree : WorkingTree) : Bool :=
  tree.files.isEmpty

def hasConflicts (tree : WorkingTree) : Bool :=
  tree.files.any fun change => change.status.isConflicted

end WorkingTree

end GitReadout.Status
