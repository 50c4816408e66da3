import GitReadout.Log.Query
import GitReadout.Log.TrailerBlock
import GitReadout.Run.FileTree
import GitReadout.Run.Output
import GitReadout.Text.Split

/-!
# Commands and their answers

The arguments of the commands that are run besides the log, and what is made of the two answers that
are not parsed elsewhere: the separators of trailers and the git directory.
-/

set_option autoImplicit false

namespace GitReadout.Repository

open Run (Output)

/-! ## Arguments -/

/-- Asks for the status of the working tree. -/
def statusArguments : List String :=
  ["--no-optional-locks", "status", "--untracked-files=all", "--branch", "--porcelain=2", "-z"]

/-- Asks for the git directory. -/
def gitDirectoryArguments : List String :=
  ["rev-parse", "--absolute-git-dir"]

/-- Asks for the separators of trailers. -/
def separatorArguments : List String :=
  ["config", "trailer.separators"]

/-- Asks for the files that a commit changed. -/
def filesChangedByArguments (sha : String) : List String :=
  ["log", sha, "-C", "-M", "-m", "-1", "--no-show-signature", "--first-parent", "--name-status",
    "--format=format:", "-z", "--"]

/-- Asks for the files that differ between two commits. -/
def differenceArguments (base head : String) : List String :=
  ["diff", "--name-status", "-z", "-M", "-C", base, head, "--"]

/-- The exit code of a log that has no commit to start from. -/
def noCommitExitCode : Int := 128

/-- The exit code with which a setting is reported as not set. -/
def notSetExitCode : Int := 1

/-! ## Answers -/

/-- The separators of trailers; the default ones when none are set. -/
def separatorsOf (output : Output) : Except Failure String :=
  if output.exitCode = some notSetExitCode then .ok Log.TrailerBlock.defaultSeparators
  else output.text.map fun text =>
    let separators := String.ofList (Text.dropLineEnds text.toList)
    if separators = "" then Log.TrailerBlock.defaultSeparators else separators

/-- The git directory that a text names, as seen from the location of the repository. -/
def gitDirectoryOf (location text : String) : String :=
  Run.join location (String.ofList (Text.dropLineEnds text.toList))

/-- The files whose presence in the git directory shows what is under way. -/
structure Marks where
  merge : String
  rebases : List String
  cherryPick : String

/-- Where the marks of a git directory stand. -/
def marksOf (gitDirectory : String) : Marks :=
  { merge := Run.join gitDirectory "MERGE_HEAD"
    rebases := ["rebase-apply", "rebase-merge"].map (Run.join gitDirectory)
    cherryPick := Run.join gitDirectory "CHERRY_PICK_HEAD" }

end GitReadout.Repository
