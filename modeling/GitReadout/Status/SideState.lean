/-!
# One side of a status entry

A status entry tells the state of a path twice, in the index and in the working tree, each by one
letter.
-/

set_option autoImplicit false

namespace GitReadout.Status

/-- The state of a path on one side. -/
inductive SideState where
  | unmodified
  | modified
  | typeChanged
  | added
  | deleted
  | renamed
  | copied
  | updatedButUnmerged
  | untracked
  | ignored
deriving DecidableEq

namespace SideState

/-- The state that a letter stands for. -/
def ofCode? : Char → Option SideState
  | '.' | ' ' => some unmodified
  | 'M' => some modified
  | 'T' => some typeChanged
  | 'A' => some added
  | 'D' => some deleted
  | 'R' => some renamed
  | 'C' => some copied
  | 'U' => some updatedButUnmerged
  | '?' => some untracked
  | '!' => some ignored
  | _ => none

end SideState

end GitReadout.Status
