/-!
# Settings

Two settings decide how outputs are read: the size up to which a status output is read at all, and
what becomes of a name-status code that is not known.
-/

set_option autoImplicit false

namespace GitReadout

/-- What becomes of an unknown name-status code. -/
inductive Tolerance where
  /-- It is read as a modification. -/
  | lenient
  /-- It is an error. -/
  | strict
deriving DecidableEq

/-- The settings of the readers. -/
structure Settings where
  /-- The largest status output, in bytes, that is read. -/
  statusLimit : Nat := 20000000
  unknownCodes : Tolerance := .lenient
deriving DecidableEq

end GitReadout
