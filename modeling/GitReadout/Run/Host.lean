import GitReadout.Notice
import GitReadout.Run.FileTree
import GitReadout.Run.Output

/-!
# The surroundings of a call

A `Host` is all that a call can see and change: the outcomes that the coming runs of git will have,
the runs made so far, the logbook, and the files there are. A run that cannot be started is not
made; an argument with a NUL in it cannot even be passed on, and uses up no outcome.

* `start_cases`: all that a start does. Nothing is started with a NUL in an argument; otherwise the
  next outcome is used up, and the run is recorded if it was started.
* `start_cons`: the same for a script that is not used up.
-/

set_option autoImplicit false

namespace GitReadout.Run

/-- Why a process could not be started. -/
inductive StartFault where
  | notFound
  | permissionDenied
  /-- An argument holds a NUL. -/
  | nulByte
deriving DecidableEq

namespace StartFault

/-- What the system says. -/
def reason : StartFault → String
  | notFound => "No such file or directory (os error 2)"
  | permissionDenied => "Permission denied (os error 13)"
  | nulByte => "nul byte found in provided data"

/-- The error of a call whose process could not be started. -/
def error : StartFault → Failure
  | notFound => .noGit
  | _ => .cannotStart

/-- How the journal records the fault. -/
def journalEntry : StartFault → JournalEntry
  | notFound => ⟨.error, "git executable not found: " ++ notFound.reason, []⟩
  | fault => ⟨.error, "Failed to execute git command: " ++ fault.reason, []⟩

end StartFault

/-- What becomes of a run. -/
inductive Outcome where
  | notStarted (fault : StartFault)
  | finished (exitCode : Option Int) (stdout stderr : ByteArray)
deriving DecidableEq

/-- Whether a process was started. -/
def Outcome.isStarted : Outcome → Bool
  | notStarted _ => false
  | finished .. => true

/-- The surroundings of a call. -/
structure Host where
  /-- The outcomes of the coming runs. -/
  script : List Outcome
  /-- The outcome of every run after those. -/
  afterwards : Outcome
  /-- The arguments of every run made so far. -/
  runs : Array (List String) := #[]
  logbook : Logbook := {}
  files : FileTree := {}
deriving DecidableEq

namespace Host

/-- Whether a text cannot be passed to a process. -/
def hasNul (text : String) : Bool :=
  text.toList.contains '\x00'

/-- Adds an entry to the journal. -/
def note (host : Host) (entry : JournalEntry) : Host :=
  { host with logbook := host.logbook.note entry }

/-- Hands soft failures to a sink. -/
def reportAll (host : Host) (sink : Sink) (notices : List Notice) : Host :=
  { host with logbook := host.logbook.reportAll sink notices }

/-- Records a run, if it was made. -/
def record (host : Host) (arguments : List String) (outcome : Outcome) : Host :=
  if outcome.isStarted then { host with runs := host.runs.push arguments } else host

/-- Uses up the next outcome. -/
def nextOutcome (host : Host) : Outcome × Host :=
  match host.script with
  | [] => (host.afterwards, host)
  | outcome :: rest => (outcome, { host with script := rest })

/-- Starts a program in a directory with arguments. -/
def start (host : Host) (program directory : String) (arguments : List String) : Outcome × Host :=
  if (program :: directory :: arguments).any hasNul then (.notStarted .nulByte, host)
  else
    let (outcome, host) := host.nextOutcome
    (outcome, host.record arguments outcome)

theorem start_cons {program directory : String} {arguments : List String}
    (h : ¬(program :: directory :: arguments).any hasNul) {host : Host} {outcome : Outcome}
    {rest : List Outcome} (hs : host.script = outcome :: rest) :
    host.start program directory arguments =
      (outcome, ({ host with script := rest } : Host).record arguments outcome) := by
  simp only [start, h, if_false, nextOutcome, hs, Bool.false_eq_true]

theorem nextOutcome_eq (host : Host) :
    host.nextOutcome =
      (host.script.head?.getD host.afterwards, { host with script := host.script.tail }) := by
  obtain ⟨_ | _, _, _, _, _⟩ := host <;> rfl

theorem record_eq (host : Host) (arguments : List String) (outcome : Outcome) :
    host.record arguments outcome =
      { host with runs := if outcome.isStarted then host.runs.push arguments else host.runs } := by
  unfold record
  split <;> rfl

theorem start_cases {program directory : String} {arguments : List String} {host after : Host}
    {outcome : Outcome} (h : host.start program directory arguments = (outcome, after)) :
    ((program :: directory :: arguments).any hasNul ∧ outcome = .notStarted .nulByte ∧
        after = host) ∨
      (¬(program :: directory :: arguments).any hasNul ∧
        outcome = host.script.head?.getD host.afterwards ∧
        after = { host with
          script := host.script.tail
          runs := if outcome.isStarted then host.runs.push arguments else host.runs }) := by
  by_cases hnul : (program :: directory :: arguments).any hasNul
  · rw [start, if_pos hnul] at h
    cases h
    exact .inl ⟨hnul, rfl, rfl⟩
  · rw [start, if_neg hnul, nextOutcome_eq] at h
    cases h
    exact .inr ⟨hnul, rfl, record_eq _ _ _⟩

end Host

end GitReadout.Run
