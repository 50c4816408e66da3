import GitReadout.Text.Quoted

/-!
# What can go wrong

A call to git fails because git could not be run, because its answer was not text, or because the
answer did not have the form it should have. `isMalformed` singles out the last kind.

* `message`: the text shown for each failure.
-/

set_option autoImplicit false

namespace GitReadout

/-- Why a call to git failed. -/
inductive Failure where
  /-- The process could not be started. -/
  | cannotStart
  /-- The output was not UTF-8. -/
  | notText
  /-- A name breaks the rules for reference names. -/
  | badRefName (name : String)
  /-- A text is no object name. -/
  | badObjectName (text : String)
  /-- The process ended with an exit code that is not accepted, or with none. -/
  | rejectedExit (exitCode : Option Int) (stdout stderr : String)
  /-- A record of the status stream has no known form. -/
  | badStatus (record reason : String)
  /-- The author or committer of a commit could not be read. -/
  | badIdentity (sha identity : String)
  /-- A record of the log does not have the fields it should have. -/
  | badCommit (record reason : String)
  /-- A name-status stream ended inside a record. -/
  | badNameStatus (index : Nat) (reason : String)
  /-- A name-status code is unknown, and unknown codes are refused. -/
  | unknownCode (code : String)
  /-- There is no git program. -/
  | noGit
deriving DecidableEq

namespace Failure

/-- How a message shows an exit code. -/
def exitCodeText : Option Int → String
  | none => "None"
  | some code => "Some(" ++ toString code ++ ")"

/-- The text shown for a failure. -/
def message : Failure → String
  | cannotStart => "Unable to execute git process"
  | notText => "Unable to decode output from git executable"
  | badRefName name => "Ref name is invalid: " ++ name
  | badObjectName text => "Commit hash is invalid: " ++ text
  | rejectedExit exitCode stdout stderr =>
    "git exited with code " ++ exitCodeText exitCode ++ " and the following stdout: " ++ stdout ++
      " stderr: " ++ stderr
  | badStatus record reason =>
    "Malformed status record " ++ Text.quote record ++ ": " ++ reason
  | badIdentity sha identity =>
    "Malformed identity " ++ Text.quote identity ++ " in commit " ++ sha
  | badCommit record reason =>
    "Malformed commit record " ++ Text.quote record ++ ": " ++ reason
  | badNameStatus index reason =>
    "Malformed name-status output at token " ++ toString index ++ ": " ++ reason
  | unknownCode code => "Unknown name-status code: " ++ code
  | noGit =>
    "'git' command not found. Please ensure Git is installed and that its executable is " ++
      "included in your system's PATH environment variable."

/-- Whether git ran and its answer did not have the form it should have. -/
def isMalformed : Failure → Bool
  | badStatus .. | badIdentity .. | badCommit .. | badNameStatus ..
  | unknownCode .. => true
  | _ => false

end Failure

end GitReadout
