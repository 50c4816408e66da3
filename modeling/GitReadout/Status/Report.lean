import GitReadout.RefName
import GitReadout.ObjectName
import GitReadout.Notice
import GitReadout.Settings
import GitReadout.Status.Cursor
import GitReadout.Status.WorkingTree
import GitReadout.Text.Numeral

/-!
# Status reports

A `Report` gathers a whole status output: what its headers say of the branch and what its entries
say of the files. The items are taken in order, so of several headers with one key the last decides,
and the first fault ends the reading. An output over the size limit is not read at all.

* `parse_of_limit_lt`: an output over the limit gives no report and one notice.
-/

set_option autoImplicit false

namespace GitReadout.Status

/-- The commits by which a branch and the one it tracks differ. -/
structure Divergence where
  ahead : Nat
  behind : Nat
deriving DecidableEq

/-- The state of a working tree and its branch. -/
structure Report where
  /-- The current branch; `none` when the head is detached. -/
  branch : Option RefName := none
  /-- The commit of the head; `none` before the first commit. -/
  tip : Option ObjectName := none
  /-- The branch that the current branch tracks. -/
  tracked : Option String := none
  divergence : Option Divergence := none
  stashes : Nat := 0
  workingTree : WorkingTree := .empty
  /-- Whether a merge is under way. -/
  merging : Bool := false
  /-- Whether a rebase is under way. -/
  rebasing : Bool := false
  /-- Whether a cherry-pick is under way. -/
  cherryPicking : Bool := false
deriving DecidableEq

/-! ## Headers -/

/-- A number of 32 bits after a sign. -/
def signedCount? (sign : Char) : List Char → Option Nat
  | c :: digits => if c = sign then Text.unsigned? Text.maxUnsigned32 digits else none
  | [] => none

/-- Counts are written `+ahead -behind`. -/
def Divergence.parse? (text : String) : Option Divergence := do
  let (ahead, behind) ← Text.cut? ' ' text.toList
  return { ahead := ← signedCount? '+' ahead, behind := ← signedCount? '-' behind }

/-- The error that names a header. -/
def Header.fault (header : Header) (fault : Fault) : Failure :=
  .badStatus ("# " ++ header.value) fault.reason

/-- The tip that a header gives; there is none before the first commit. -/
def Header.tip (header : Header) : Except Failure (Option ObjectName) :=
  if header.rest = "(initial)" then .ok none
  else ((ObjectName.parse header.rest).map some).mapError fun _ => header.fault .badTip

/-- The branch that a header gives; a detached head has none. -/
def Header.branch (header : Header) : Except Failure (Option RefName) :=
  if header.rest = "(detached)" then .ok none
  else ((RefName.parse header.rest).map some).mapError fun _ => header.fault .badBranch

/-- The counts that a header gives. -/
def Header.divergence (header : Header) : Except Failure Divergence :=
  match Divergence.parse? header.rest with
  | some counts => .ok counts
  | none => .error (header.fault .badDivergence)

/-- The number of stashes that a header gives. -/
def Header.stashes (header : Header) : Except Failure Nat :=
  match Text.unsigned? Text.maxUnsigned64 header.rest.toList with
  | some count => .ok count
  | none => .error (header.fault .badStashes)

namespace Report

/-- Records what a header says; headers with other keys say nothing. -/
def applyHeader (report : Report) (header : Header) : Except Failure Report :=
  match header.key with
  | "branch.oid" => header.tip.map fun tip => { report with tip }
  | "branch.head" => header.branch.map fun branch => { report with branch }
  | "branch.upstream" => .ok { report with tracked := some header.rest }
  | "branch.ab" => header.divergence.map fun counts => { report with divergence := some counts }
  | "stash" => header.stashes.map fun stashes => { report with stashes }
  | _ => .ok report

/-! ## Reports of whole outputs -/

/-- Records the change that an entry describes, if it is shown. -/
def applyEntry (report : Report) (entry : Entry) : Report :=
  match entry.change? with
  | some change => { report with workingTree := report.workingTree.insert change }
  | none => report

/-- Records what an item says. -/
def apply (report : Report) : Item → Except Failure Report
  | .header header => report.applyHeader header
  | .entry entry => .ok (report.applyEntry entry)

/-- The report that items give after what is recorded so far. -/
def applyAll (report : Report) : List (Except Failure Item) → Except Failure Report
  | [] => .ok report
  | .error e :: _ => .error e
  | .ok item :: rest =>
    match report.apply item with
    | .ok report => report.applyAll rest
    | .error e => .error e

def ofItems (items : List (Except Failure Item)) : Except Failure Report :=
  applyAll {} items

/-- The report of a status output; `none` when the output is over the limit. -/
def parse (output : String) (settings : Settings) : Reported (Option Report) :=
  if settings.statusLimit < output.utf8ByteSize then
    ⟨.ok none, [.statusTooLarge output.utf8ByteSize settings.statusLimit]⟩
  else
    ⟨(ofItems (items output)).map some, []⟩

def isClean (report : Report) : Bool :=
  report.workingTree.isEmpty

theorem parse_of_limit_lt {output : String} {settings : Settings}
    (h : settings.statusLimit < output.utf8ByteSize) :
    parse output settings =
      ⟨.ok none, [.statusTooLarge output.utf8ByteSize settings.statusLimit]⟩ := by
  simp [parse, h]

theorem parse_of_size_le {output : String} {settings : Settings}
    (h : output.utf8ByteSize ≤ settings.statusLimit) :
    parse output settings = ⟨(ofItems (items output)).map some, []⟩ := by
  simp [parse, Nat.not_lt.2 h]

end Report

end GitReadout.Status
