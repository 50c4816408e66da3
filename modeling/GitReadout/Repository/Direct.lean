import GitReadout.Log.Commit
import GitReadout.NameStatus.Change
import GitReadout.Repository.Command
import GitReadout.Run.Runner
import GitReadout.Status.Report

/-!
# Repositories

A `Repository` answers questions about a git repository by running git in its location and reading
what git writes. Each question has its runs, its accepted exit codes and its reader.
-/

set_option autoImplicit false

namespace GitReadout

open Run (ExitPolicy GitRunner Output Session)

/-- A git repository, run by `runner`. -/
structure Repository (ρ : Type) where
  location : String
  runner : ρ
  settings : Settings := {}
  sink : Sink := .journal

namespace Repository

variable {ρ : Type} [GitRunner ρ]

/-- Runs git in the location of the repository. -/
def git (repository : Repository ρ) (arguments : List String) (policy : ExitPolicy) :
    Session Output :=
  GitRunner.run repository.runner repository.location arguments policy

/-- Whether something stands at a path. -/
def exists? (path : String) : Session Bool := do
  return (← Session.lookup path).isFound

/-- Whether something stands at one of the paths; the first find ends the search. -/
def anyExists? : List String → Session Bool
  | [] => return false
  | path :: rest => do
    if ← exists? path then return true else anyExists? rest

/-- The status of the working tree; `none` when the output is over the limit. -/
def status (repository : Repository ρ) : Session (Option Status.Report) := do
  let output ← repository.git statusArguments .strict
  let text ← Session.lift output.text
  match ← Session.ofReported repository.sink (Status.Report.parse text repository.settings) with
  | none => return none
  | some report =>
    let answer ← repository.git gitDirectoryArguments .strict
    let directory ← Session.lift answer.text
    let marks := marksOf (gitDirectoryOf repository.location directory)
    let merging ← exists? marks.merge
    let rebasing ← anyExists? marks.rebases
    let cherryPicking ← exists? marks.cherryPick
    return some { report with merging, rebasing, cherryPicking }

/-- The characters that separate the key of a trailer from its value. -/
def separators (repository : Repository ρ) : Session String := do
  let output ← repository.git separatorArguments (.ofCodes [0, notSetExitCode])
  Session.lift (separatorsOf output)

/-- The commits that a query asks for, the newest first. There are none when the log has no commit
to start from. -/
def commits (repository : Repository ρ) (query : Log.Query) : Session (List Log.Commit) := do
  let output ← repository.git query.arguments (.ofCodes [0, noCommitExitCode])
  if output.exitCode = some noCommitExitCode then
    Session.reportAll repository.sink [.noCommits "log"]
    return []
  else
    let separators ← repository.separators
    let text ← Session.lift output.text
    Session.lift (Log.Commit.parseLog text separators)

/-- The commit that a reference leads to, if there is one. -/
def commit? (repository : Repository ρ) (reference : String) : Session (Option Log.Commit) := do
  let commits ← repository.commits { revisionRange := reference, maxCount := some 1 }
  return commits.head?

/-- The files that the output of a run describes as changed. -/
def readChanges (repository : Repository ρ) (output : Output) (commitish : String) :
    Session (List NameStatus.Change) := do
  let text ← Session.lift output.text
  Session.ofReported repository.sink
    (NameStatus.Change.parse text commitish repository.settings.unknownCodes)

/-- The files that a commit changed against its first parent. -/
def filesChangedBy (repository : Repository ρ) (sha : String) :
    Session (List NameStatus.Change) := do
  let output ← repository.git (filesChangedByArguments sha) .strict
  repository.readChanges output sha

/-- The files that differ between two commits, labelled with the second. -/
def filesChangedBetween (repository : Repository ρ) (base head : String) :
    Session (List NameStatus.Change) := do
  let output ← repository.git (differenceArguments base head) .strict
  repository.readChanges output head

end Repository

end GitReadout
