/-!
# Paths and files

A `FileTree` is what a path can lead to. A path is followed component by component from the root, or
from the current directory when it does not begin with a slash. Empty components and `.` stay where
they are, `..` goes up, and nothing is found below a plain file or below a name that is not there.

A tree has directories and plain files only. There are no symbolic links in it, so `..` behind the
name of a directory always leads back to where that name was looked up, and no permissions, so every
directory can be entered.

* `join_of_absolute`: an absolute path stays as it is.
-/

set_option autoImplicit false

namespace GitReadout.Run

/-! ## Paths -/

/-- Whether a path begins at the root. -/
def isAbsolute (path : String) : Bool :=
  path.toList.head? = some '/'

/-- The path that `path` is as seen from `base`. -/
def join (base path : String) : String :=
  if isAbsolute path then path
  else if base.toList.getLast?.any (· ≠ '/') then base ++ "/" ++ path
  else base ++ path

theorem join_of_absolute {path : String} (h : isAbsolute path) (base : String) :
    join base path = path := by
  simp [join, h]

/-! ## Trees -/

/-- The directories and plain files there are, each by its components from the root. The root itself
is always there. -/
structure FileTree where
  directories : List (List String) := []
  plainFiles : List (List String) := []
  /-- The directory from which relative paths are followed. -/
  current : List String := []
deriving DecidableEq

/-- Where a path leads. -/
inductive Lookup where
  | found
  /-- A component of the path does not exist. -/
  | missing
  /-- The path cannot be followed: a plain file stands in its way, or it is no path at all. -/
  | refused
deriving DecidableEq

/-- Whether something was found. -/
def Lookup.isFound : Lookup → Bool
  | found => true
  | _ => false

/-- Whether something is known to be there or not; `none` when the path cannot be followed. -/
def Lookup.presence? : Lookup → Option Bool
  | found => some true
  | missing => some false
  | refused => none

namespace FileTree

/-- The size in bytes from which on a path is too long. -/
def maxPathBytes : Nat := 4096

/-- Follows components from a directory. -/
def follow (tree : FileTree) (directory : List String) : List String → Lookup
  | [] => .found
  | component :: rest =>
    if component = "" ∨ component = "." then tree.follow directory rest
    else if component = ".." then tree.follow directory.dropLast rest
    else if tree.directories.contains (directory ++ [component]) then
      tree.follow (directory ++ [component]) rest
    else if tree.plainFiles.contains (directory ++ [component]) then
      if rest = [] then .found else .refused
    else .missing

/-- Where a path leads. -/
def lookup (tree : FileTree) (path : String) : Lookup :=
  if path = "" then .missing
  else if maxPathBytes ≤ path.utf8ByteSize ∨ path.toList.contains '\x00' then .refused
  else
    tree.follow (if isAbsolute path then [] else tree.current)
      ((path.toList.splitOn '/').map String.ofList)

end FileTree

end GitReadout.Run
