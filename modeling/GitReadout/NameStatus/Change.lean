import GitReadout.Notice
import GitReadout.NameStatus.Record

/-!
# Files changed by a commit

Each record of a name-status output becomes a `Change`, labelled with the commit that the caller
asked about. An unknown code is reported when unknown codes are tolerated and ends the reading when
they are not.

* `collect_nil`, `collect_cons_ok`, `collect_cons_error`: how the changes and the reports add up.
-/

set_option autoImplicit false

namespace GitReadout.NameStatus

/-- A file changed by a commit or between two commits. -/
structure Change where
  path : String
  status : FileStatus
  /-- The commit that the caller asked about. -/
  commitish : String
deriving DecidableEq

/-- The change that a record describes. -/
def Record.toChange (record : Record) (commitish : String) (tolerance : Tolerance) :
    Except Failure Change :=
  (ofCode record.code record.oldPath tolerance).map fun status => ⟨record.path, status, commitish⟩

theorem Record.toChange_of_ok {record : Record} {tolerance : Tolerance} {status : FileStatus}
    (h : ofCode record.code record.oldPath tolerance = .ok status) (commitish : String) :
    record.toChange commitish tolerance = .ok ⟨record.path, status, commitish⟩ := by
  rw [Record.toChange, h]
  rfl

/-- The report that an unknown code is worth. -/
def Record.notice? (record : Record) : Option Notice :=
  if isKnown record.code then none else some (.unknownCode record.code record.path)

namespace Change

/-- The changes of records that end in `fault`, after the changes and notices found before. -/
def collectInto (commitish : String) (tolerance : Tolerance) (fault : Option Failure) :
    Array Change → Array Notice → List Record → Reported (List Change)
  | changes, notices, [] =>
    ⟨match fault with
      | some e => .error e
      | none => .ok changes.toList, notices.toList⟩
  | changes, notices, record :: rest =>
    match record.toChange commitish tolerance with
    | .error e => ⟨.error e, notices.toList⟩
    | .ok change =>
      collectInto commitish tolerance fault (changes.push change)
        (record.notice?.elim notices notices.push) rest

/-- The changes of records that end in `fault`. -/
def collect (commitish : String) (tolerance : Tolerance) (fault : Option Failure)
    (records : List Record) : Reported (List Change) :=
  collectInto commitish tolerance fault #[] #[] records

/-- The changes that a name-status output describes. -/
def parse (output commitish : String) (tolerance : Tolerance) : Reported (List Change) :=
  let read := records output
  collect commitish tolerance read.2 read.1

@[simp] theorem collect_nil (commitish : String) (tolerance : Tolerance)
    (fault : Option Failure) :
    collect commitish tolerance fault [] =
      ⟨match fault with
        | some e => .error e
        | none => .ok [], []⟩ := rfl

theorem collectInto_eq (commitish : String) (tolerance : Tolerance) (fault : Option Failure)
    (changes : Array Change) (notices : Array Notice) (records : List Record) :
    collectInto commitish tolerance fault changes notices records =
      ⟨(collect commitish tolerance fault records).result.map (changes.toList ++ ·),
        notices.toList ++ (collect commitish tolerance fault records).notices⟩ := by
  induction records generalizing changes notices with
  | nil => cases fault <;> simp [collect, collectInto, Except.map]
  | cons record rest ih =>
    unfold collect collectInto
    cases record.toChange commitish tolerance with
    | error e => simp [Except.map]
    | ok change =>
      simp only []
      rw [ih, ih (#[].push change)]
      cases record.notice? <;> cases (collect commitish tolerance fault rest).result <;>
        simp [Except.map]

theorem collect_cons_error {record : Record} {commitish : String} {tolerance : Tolerance}
    {e : Failure} (h : record.toChange commitish tolerance = .error e) (fault : Option Failure)
    (rest : List Record) : collect commitish tolerance fault (record :: rest) = ⟨.error e, []⟩ := by
  simp [collect, collectInto, h]

theorem collect_cons_ok {record : Record} {commitish : String} {tolerance : Tolerance}
    {change : Change} (h : record.toChange commitish tolerance = .ok change)
    (fault : Option Failure) (rest : List Record) :
    collect commitish tolerance fault (record :: rest) =
      ⟨(collect commitish tolerance fault rest).result.map (change :: ·),
        record.notice?.toList ++ (collect commitish tolerance fault rest).notices⟩ := by
  rw [collect, collectInto, h]
  simp only []
  rw [collectInto_eq]
  cases record.notice? <;> rfl

end Change

end GitReadout.NameStatus
