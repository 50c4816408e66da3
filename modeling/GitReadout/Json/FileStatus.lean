import GitReadout.FileStatus
import GitReadout.Json.Value

/-!
# File statuses as JSON

A file status is an object that tells its kind under `kind`, beside what the kind needs; it is also
read from an array that begins with the kind. A conflict is an object of its own, whose members a
file status takes over.
-/

set_option autoImplicit false

namespace GitReadout

/-! ## Conflicts -/

def ConflictKind.name : ConflictKind → String
  | bothDeleted => "BothDeleted"
  | addedByUs => "AddedByUs"
  | deletedByThem => "DeletedByThem"
  | addedByThem => "AddedByThem"
  | deletedByUs => "DeletedByUs"
  | bothAdded => "BothAdded"
  | bothModified => "BothModified"

def ConflictKind.ofName? : String → Option ConflictKind
  | "BothDeleted" => some bothDeleted
  | "AddedByUs" => some addedByUs
  | "DeletedByThem" => some deletedByThem
  | "AddedByThem" => some addedByThem
  | "DeletedByUs" => some deletedByUs
  | "BothAdded" => some bothAdded
  | "BothModified" => some bothModified
  | _ => none

def ConflictKind.toJson (kind : ConflictKind) : Json := .string kind.name

def ConflictKind.ofJson? (value : Json) : Option ConflictKind := do
  ofName? (← value.name?)

/-- Reads a kind of conflict inside a file status, where the name may also stand over an empty
object. -/
def ConflictKind.ofInnerJson? : Json → Option ConflictKind
  | .object [(name, .object [])] => ofName? name
  | value => ofJson? value

/-- The fields of a conflict. -/
def Conflict.members (conflict : Conflict) : List (String × Json) :=
  [("us", .string (String.singleton conflict.us)),
    ("them", .string (String.singleton conflict.them)),
    ("summary", Json.ofOption ConflictKind.toJson conflict.kind)]

def Conflict.toJson (conflict : Conflict) : Json := .object conflict.members

/-- Reads a conflict with a given reading of kinds. -/
def Conflict.ofJsonWith? (kind? : Json → Option ConflictKind) (value : Json) :
    Option Conflict :=
  match value.record? ["us", "them", "summary"] with
  | some [us, them, kind] => do
    let us ← Json.required Json.char? us
    let them ← Json.required Json.char? them
    let kind ← Json.optional kind? kind
    return { us, them, kind }
  | _ => none

def Conflict.ofJson? (value : Json) : Option Conflict :=
  ofJsonWith? ConflictKind.ofJson? value

/-! ## File statuses -/

namespace FileStatus

def kindName : FileStatus → String
  | added => "new"
  | modified => "modified"
  | deleted => "deleted"
  | renamed _ => "renamed"
  | copied _ => "copied"
  | conflicted _ => "conflicted"
  | untracked => "untracked"

/-- What a status needs beside its kind. -/
def payload : FileStatus → List (String × Json)
  | renamed oldPath | copied oldPath => [("old_path", .string oldPath)]
  | conflicted conflict => conflict.members
  | _ => []

def toJson (status : FileStatus) : Json :=
  .object (("kind", .string status.kindName) :: status.payload)

def sourceOfJson? (value : Json) : Option String :=
  match value.record? ["old_path"] with
  | some [oldPath] => Json.required Json.string? oldPath
  | _ => none

/-- Reads the status of a kind that needs nothing: an object may hold anything, an array nothing. -/
def plainOfJson? (status : FileStatus) : Json → Option FileStatus
  | .object _ | .array [] => some status
  | _ => none

/-- Reads the status of a kind from what stands beside the kind. -/
def ofPayload? : String → Json → Option FileStatus
  | "new", value => plainOfJson? added value
  | "modified", value => plainOfJson? modified value
  | "deleted", value => plainOfJson? deleted value
  | "untracked", value => plainOfJson? untracked value
  | "renamed", value => (sourceOfJson? value).map renamed
  | "copied", value => (sourceOfJson? value).map copied
  | "conflicted", value =>
    (Conflict.ofJsonWith? ConflictKind.ofInnerJson? value).map conflicted
  | _, _ => none

def ofJson? : Json → Option FileStatus
  | .object members => do
    ofPayload? (← (← members.lookup "kind").string?) (.object members)
  | .array (kind :: items) => do
    ofPayload? (← kind.string?) (.array items)
  | _ => none

end FileStatus

end GitReadout
