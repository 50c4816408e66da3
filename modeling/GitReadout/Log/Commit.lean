import GitReadout.ObjectName
import GitReadout.Log.Author
import GitReadout.Log.Decoration
import GitReadout.Log.Identity
import GitReadout.Log.TrailerBlock

/-!
# Commits

The log is written as one record for each commit, ended by NUL, with nine fields separated by the
unit separator. A record is read in the order number of fields, name, short name, author, committer,
parents, and the first fault makes the error; one bad record fails the whole log.
-/

set_option autoImplicit false

namespace GitReadout.Log

structure Commit where
  sha : ObjectName
  shortSha : ObjectName
  /-- The first line of the message. -/
  summary : String
  /-- The rest of the message. -/
  body : String
  author : Identity
  committer : Identity
  /-- None for a root commit, two or more for a merge. -/
  parents : List ObjectName
  trailers : Trailers
  tags : List String
deriving DecidableEq

/-- What is wrong with the record of a commit. -/
inductive Fault where
  | fieldCount (found : Nat)
  | badSha
  | badShortSha
  | badParent
deriving DecidableEq

def fieldCount : Nat := 9

/-- The reason that a message gives. -/
def Fault.reason : Fault → String
  | .fieldCount found =>
    "expected " ++ toString Log.fieldCount ++ " fields, found " ++ toString found
  | badSha => "invalid sha"
  | badShortSha => "invalid short sha"
  | badParent => "invalid parent sha"

namespace Commit

def isMerge (commit : Commit) : Bool :=
  1 < commit.parents.length

/-- The values of the trailers under a key. -/
def trailer? (commit : Commit) (key : String) : Option (List String) :=
  commit.trailers.get? key

/-- The people that `Co-authored-by` trailers name. -/
def coAuthors (commit : Commit) : List Author :=
  ((commit.trailer? "Co-authored-by").getD []).filterMap Author.parse?

/-- The names that a field of parents lists. -/
def parseParents (field : String) : Except Failure (List ObjectName) :=
  (Text.words field.toList).mapM fun word => ObjectName.parse (String.ofList word)

/-- The error of a record. -/
def fault (record : String) (fault : Fault) : Failure :=
  .badCommit record fault.reason

/-- The identity in a field of the commit `sha`. -/
def readIdentity (sha : ObjectName) (field : String) : Except Failure Identity :=
  match Identity.parse? field with
  | some identity => .ok identity
  | none => .error (.badIdentity sha.value field)

/-- The commit that a record describes. -/
def parse (record separators : String) : Except Failure Commit :=
  match (record.toList.splitOn '\x1F').map String.ofList with
  | [sha, shortSha, summary, body, author, committer, parents, trailers, decoration] => do
    let sha ← (ObjectName.parse sha).mapError fun _ => fault record .badSha
    let shortSha ← (ObjectName.parse shortSha).mapError fun _ => fault record .badShortSha
    let author ← readIdentity sha author
    let committer ← readIdentity sha committer
    let parents ← (parseParents parents).mapError fun _ => fault record .badParent
    return {
      sha, shortSha, summary, body, author, committer, parents
      trailers := TrailerBlock.parse trailers separators
      tags := Decoration.tags decoration }
  | fields => .error (fault record (.fieldCount fields.length))

/-- The commits of a log. -/
def parseLog (output separators : String) : Except Failure (List Commit) :=
  (Text.records '\x00' output.toList).mapM fun record => parse (String.ofList record) separators

end Commit

end GitReadout.Log
