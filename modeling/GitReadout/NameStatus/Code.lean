import GitReadout.FileStatus
import GitReadout.Failure
import GitReadout.Settings
import GitReadout.Text.Numeral

/-!
# Name-status codes

A name-status code is a letter, or `R` or `C` with a similarity score, which may be missing. A
scored code is followed by two paths, every other code by one.

* `ofCode_lenient`: when unknown codes are tolerated every code has a status.
-/

set_option autoImplicit false

namespace GitReadout.NameStatus

/-- Whether a code has two paths: `R` or `C`, then decimal digits or nothing. -/
def isScored (code : String) : Bool :=
  match code.toList with
  | c :: score => (c = 'R' || c = 'C') && score.all Text.isDecimalDigit
  | [] => false

/-- The status of the codes that are one letter. -/
def ofLetter? : String → Option FileStatus
  | "M" | "T" => some .modified
  | "A" => some .added
  | "D" => some .deleted
  | "?" => some .untracked
  | _ => none

/-- The status of a scored code whose source is known. -/
def ofScore? (code : String) (oldPath : Option String) : Option FileStatus :=
  if isScored code then
    oldPath.map fun oldPath =>
      if code.toList.head? = some 'R' then .renamed oldPath else .copied oldPath
  else none

/-- Whether a code has a meaning of its own. -/
def isKnown (code : String) : Bool :=
  (ofLetter? code).isSome || isScored code

/-- The status that a code stands for. Unknown codes, and scored codes without a source, are
modifications or errors. -/
def ofCode (code : String) (oldPath : Option String) (tolerance : Tolerance) :
    Except Failure FileStatus :=
  match ofLetter? code, ofScore? code oldPath, tolerance with
  | some status, _, _ => .ok status
  | none, some status, _ => .ok status
  | none, none, .lenient => .ok .modified
  | none, none, .strict => .error (.unknownCode code)

theorem ofCode_lenient (code : String) (oldPath : Option String) :
    ∃ status, ofCode code oldPath .lenient = .ok status := by
  unfold ofCode
  split <;> simp_all

end GitReadout.NameStatus
