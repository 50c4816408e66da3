import GitReadout.Run.Session

/-!
# Running git

A `GitRunner` runs git with arguments in a directory. `GitProgram` starts a program; `Shared` is a
runner that others use as well and runs git just as the runner it stands for.

* `run_of_finished`, `run_of_notStarted`: how a call of a program ends.
-/

set_option autoImplicit false

namespace GitReadout.Run

/-- What can run git. -/
class GitRunner (ρ : Type) where
  /-- Runs git with arguments in a directory, with some exit codes accepted. -/
  run : ρ → String → List String → ExitPolicy → Session Output

/-- A program that is git. -/
structure GitProgram where
  program : String := "git"
deriving DecidableEq

/-- Starts the program and waits until it ends. -/
def GitProgram.run (git : GitProgram) (directory : String) (arguments : List String)
    (policy : ExitPolicy) : Session Output :=
  fun host =>
    match host.start git.program directory arguments with
    | (.finished exitCode stdout stderr, host) => (conclude policy exitCode stdout stderr, host)
    | (.notStarted fault, host) => (.error fault.error, host.note fault.journalEntry)

instance : GitRunner GitProgram where
  run := GitProgram.run

/-- A runner that others use as well. -/
structure Shared (ρ : Type) where
  runner : ρ
deriving DecidableEq

instance {ρ : Type} [GitRunner ρ] : GitRunner (Shared ρ) where
  run shared := GitRunner.run shared.runner

theorem run_of_finished {git : GitProgram} {directory : String} {arguments : List String}
    {host after : Host} {exitCode : Option Int} {stdout stderr : ByteArray}
    (h : host.start git.program directory arguments = (.finished exitCode stdout stderr, after))
    (policy : ExitPolicy) :
    git.run directory arguments policy host = (conclude policy exitCode stdout stderr, after) := by
  simp [GitProgram.run, h]

theorem run_of_notStarted {git : GitProgram} {directory : String} {arguments : List String}
    {host after : Host} {fault : StartFault}
    (h : host.start git.program directory arguments = (.notStarted fault, after))
    (policy : ExitPolicy) :
    git.run directory arguments policy host =
      (.error fault.error, after.note fault.journalEntry) := by
  simp [GitProgram.run, h]

end GitReadout.Run
