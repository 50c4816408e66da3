import GitReadout.Log.Commit
import GitReadout.NameStatus.Change
import GitReadout.Repository.Command
import GitReadout.Run.Deferred
import GitReadout.Status.Report

/-!
# Repositories that do not wait

A `DeferredRepository` answers the same questions as a `Repository` without waiting for git itself:
each of its answers is a deferred call, which somebody else carries out.
-/

set_option autoImplicit false

namespace GitReadout

open Run (Deferred ExitPolicy Output)

/-- A git repository that does not wait for git. -/
structure DeferredRepository where
  location : String
  program : String := "git"
  settings : Settings := {}
  sink : Sink := .journal

namespace DeferredRepository

open Repository

/-- Runs git in the location of the repository. -/
def git (repository : DeferredRepository) (arguments : List String) (policy : ExitPolicy) :
    Deferred Output :=
  .start repository.program repository.location arguments fun
    | .finished exitCode stdout stderr => .done (Run.conclude policy exitCode stdout stderr)
    | .notStarted fault => .note fault.journalEntry (.done (.error fault.error))

/-- Whether something stands at a path; a path that cannot be followed leads to nothing. -/
def exists? (path : String) : Deferred Bool :=
  .lookup path fun answer => pure (answer.presence?.getD false)

/-- Whether something stands at one of the paths; the first find ends the search. -/
def anyExists? : List String → Deferred Bool
  | [] => return false
  | path :: rest => do
    if ← exists? path then return true else anyExists? rest

/-- The status of the working tree; `none` when the output is over the limit. -/
def status (repository : DeferredRepository) : Deferred (Option Status.Report) := do
  let output ← repository.git statusArguments .strict
  let text ← Deferred.done output.text
  match ← Deferred.ofReported repository.sink (Status.Report.parse text repository.settings) with
  | none => return none
  | some report =>
    let answer ← repository.git gitDirectoryArguments .strict
    let directory ← Deferred.done answer.text
    let marks := marksOf (gitDirectoryOf repository.location directory)
    let merging ← exists? marks.merge
    let rebasing ← anyExists? marks.rebases
    let cherryPicking ← exists? marks.cherryPick
    return some { report with merging, rebasing, cherryPicking }

/-- The characters that separate the key of a trailer from its value. -/
def separators (repository : DeferredRepository) : Deferred String := do
  let output ← repository.git separatorArguments (.ofCodes [0, notSetExitCode])
  Deferred.done (separatorsOf output)

/-- The commits that a query asks for, the newest first. -/
def commits (repository : DeferredRepository) (query : Log.Query) :
    Deferred (List Log.Commit) := do
  let output ← repository.git query.arguments (.ofCodes [0, noCommitExitCode])
  if output.exitCode = some noCommitExitCode then
    Deferred.report repository.sink [.noCommits "log"] (return [])
  else
    let separators ← repository.separators
    let text ← Deferred.done output.text
    Deferred.done (Log.Commit.parseLog text separators)

/-- The commit that a reference leads to, if there is one. -/
def commit? (repository : DeferredRepository) (reference : String) :
    Deferred (Option Log.Commit) := do
  let commits ← repository.commits { revisionRange := reference, maxCount := some 1 }
  return commits.head?

/-- The files that the output of a run describes as changed. -/
def readChanges (repository : DeferredRepository) (output : Output) (commitish : String) :
    Deferred (List NameStatus.Change) := do
  let text ← Deferred.done output.text
  Deferred.ofReported repository.sink
    (NameStatus.Change.parse text commitish repository.settings.unknownCodes)

/-- The files that a commit changed against its first parent. -/
def filesChangedBy (repository : DeferredRepository) (sha : String) :
    Deferred (List NameStatus.Change) := do
  let output ← repository.git (filesChangedByArguments sha) .strict
  repository.readChanges output sha

/-- The files that differ between two commits, labelled with the second. -/
def filesChangedBetween (repository : DeferredRepository) (base head : String) :
    Deferred (List NameStatus.Change) := do
  let output ← repository.git (differenceArguments base head) .strict
  repository.readChanges output head

end DeferredRepository

end GitReadout
