import GitReadout.Json.FileStatus
import GitReadout.NameStatus.Change

/-!
# Files changed by commits as JSON

A file changed by a commit is an object with its path, its status and the commit that the caller
asked about.
-/

set_option autoImplicit false

namespace GitReadout.NameStatus

def Change.toJson (change : Change) : Json :=
  .object [("path", .string change.path), ("status", change.status.toJson),
    ("commitish", .string change.commitish)]

def Change.ofJson? (value : Json) : Option Change :=
  match value.record? ["path", "status", "commitish"] with
  | some [path, status, commitish] => do
    let path ← Json.required Json.string? path
    let status ← Json.required FileStatus.ofJson? status
    let commitish ← Json.required Json.string? commitish
    return { path, status, commitish }
  | _ => none

end GitReadout.NameStatus
