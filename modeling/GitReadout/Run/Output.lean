import GitReadout.Failure
import GitReadout.Text.Blank

/-!
# What a run of git leaves

A run that ends leaves an exit code, unless a signal ended it, and two outputs. Whether that is a
success is up to the exit codes that the caller accepts; a run that fails is reported with what it
wrote, without the white space at the end.
-/

set_option autoImplicit false

namespace GitReadout.Run

/-- Bytes are compared as arrays are. -/
instance decidableEqBytes : DecidableEq ByteArray :=
  ByteArray.instDecidableEq

/-- The exit codes that count as success. -/
structure ExitPolicy where
  accepted : List Int := [0]
deriving DecidableEq

namespace ExitPolicy

def strict : ExitPolicy := {}

def ofCodes (codes : List Int) : ExitPolicy := ⟨codes⟩

/-- Whether an exit code counts as success; a run without one never does. -/
def accepts (policy : ExitPolicy) (exitCode : Option Int) : Bool :=
  exitCode.any policy.accepted.contains

theorem accepts_ofCodes_iff {codes : List Int} {exitCode : Option Int} :
    (ofCodes codes).accepts exitCode ↔ ∃ code ∈ codes, exitCode = some code := by
  cases exitCode <;> simp [accepts, ofCodes]

end ExitPolicy

/-- What an accepted run wrote. -/
structure Output where
  exitCode : Option Int
  stdout : ByteArray
  stderr : ByteArray
deriving DecidableEq

/-- The text that was written, if it is UTF-8. -/
def Output.text (output : Output) : Except Failure String :=
  match String.fromUTF8? output.stdout with
  | some text => .ok text
  | none => .error .notText

/-- Bytes as a message shows them. -/
def shownText (name : String) (written : ByteArray) : String :=
  match String.fromUTF8? written with
  | some text => String.ofList (Text.trimEnd text.toList)
  | none => "[" ++ name ++ ": undecodable UTF-8]"

/-- The output of a run that ended, if its exit code is accepted. -/
def conclude (policy : ExitPolicy) (exitCode : Option Int) (stdout stderr : ByteArray) :
    Except Failure Output :=
  if policy.accepts exitCode then .ok ⟨exitCode, stdout, stderr⟩
  else .error (.rejectedExit exitCode (shownText "stdout" stdout) (shownText "stderr" stderr))

end GitReadout.Run
