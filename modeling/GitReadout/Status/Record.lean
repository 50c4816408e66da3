import GitReadout.Failure
import GitReadout.Status.Code
import GitReadout.Status.Item

/-!
# Records of the status stream

The stream is cut into records at NUL. A record begins with a mark and a space: `#` for a header,
`1` for an ordinary entry, `2` for a rename or copy, `u` for an unmerged path, `?` for an untracked
and `!` for an ignored one. A rename or copy takes the record after it as its source, whatever that
looks like. Anything else is an error, as is a record whose fields are not what they should be; of
several faults of one record a missing source comes first, then the fields, the score, the code and
the submodule.

* `group_of_takesSource`, `group_of_not_takesSource`: which records take the one after them.
* `readItem_header`: every text is the value of a header.
-/

set_option autoImplicit false

namespace GitReadout.Status

/-! ## Faults -/

/-- What is wrong with a record. -/
inductive Fault where
  | unknownRecord
  | missingSource
  | truncatedOrdinary
  | truncatedRename
  | truncatedUnmerged
  | badScore
  | badCode
  | badSubmodule
  | missingPath
  | badTip
  | badBranch
  | badDivergence
  | badStashes
deriving DecidableEq

/-- The reason that a message gives. -/
def Fault.reason : Fault → String
  | unknownRecord => "unknown record type"
  | missingSource => "missing rename or copy source"
  | truncatedOrdinary => "truncated ordinary entry"
  | truncatedRename => "truncated rename or copy entry"
  | truncatedUnmerged => "truncated unmerged entry"
  | badScore => "rename or copy score must start with R or C"
  | badCode => "invalid XY status code"
  | badSubmodule => "invalid submodule field"
  | missingPath => "missing path"
  | badTip => "invalid branch tip"
  | badBranch => "invalid branch name"
  | badDivergence => "invalid ahead/behind counts"
  | badStashes => "invalid stash count"

/-! ## Records and their sources -/

/-- A record, with the record after it if it is a rename or copy and not the last. -/
structure Record where
  text : List Char
  source : Option (List Char)
deriving DecidableEq

namespace Record

/-- Whether a record takes the one after it as its source. -/
def takesSource : List Char → Bool
  | '2' :: ' ' :: _ => true
  | _ => false

/-- Adds the records of a stream, each with its source, to those found before. -/
def groupInto (found : Array Record) : List (List Char) → Array Record
  | [] => found
  | [text] => found.push ⟨text, none⟩
  | text :: next :: rest =>
    if takesSource text then groupInto (found.push ⟨text, some next⟩) rest
    else groupInto (found.push ⟨text, none⟩) (next :: rest)

/-- The records of a stream, each with its source. -/
def group (texts : List (List Char)) : List Record :=
  (groupInto #[] texts).toList

/-- The records of a status output. -/
def ofOutput (output : String) : List Record :=
  group (Text.records '\x00' output.toList)

theorem toList_groupInto : ∀ (texts : List (List Char)) (found : Array Record),
    (groupInto found texts).toList = found.toList ++ group texts
  | [], found => by simp [groupInto, group]
  | [text], found => by simp [groupInto, group]
  | text :: next :: rest, found => by
    unfold group groupInto
    split
    · rw [toList_groupInto rest (found.push _), toList_groupInto rest (#[].push _)]
      simp
    · rw [toList_groupInto (next :: rest) (found.push _),
        toList_groupInto (next :: rest) (#[].push _)]
      simp

@[simp] theorem group_nil : group [] = [] := rfl

@[simp] theorem group_singleton (text : List Char) : group [text] = [⟨text, none⟩] := rfl

theorem group_of_takesSource {text : List Char} (h : takesSource text) (next : List Char)
    (rest : List (List Char)) : group (text :: next :: rest) = ⟨text, some next⟩ :: group rest := by
  rw [group, groupInto, if_pos h, toList_groupInto]
  rfl

theorem group_of_not_takesSource {text : List Char} (h : ¬takesSource text)
    (rest : List (List Char)) : group (text :: rest) = ⟨text, none⟩ :: group rest := by
  cases rest with
  | nil => rfl
  | cons next rest =>
    rw [group, groupInto, if_neg h, toList_groupInto]
    rfl

/-! ## Reading a record -/

/-- The entry that the fields of a record describe. -/
def entryOf (kind : Entry.Kind) (code submodule path : List Char) : Except Fault Item :=
  match Code.split? (String.ofList code) with
  | none => .error .badCode
  | some (x, y) =>
    if Code.isLetter x && Code.isLetter y then
      match Submodule.readField? submodule with
      | none => .error .badSubmodule
      | some submodule =>
        .ok (.entry ⟨kind, String.ofList path, String.ofList code, submodule⟩)
    else .error .badCode

/-- The fields are `1`, the code, the submodule, three modes, two object names and the path. -/
def readOrdinary (text : List Char) : Except Fault Item :=
  match Text.fields ' ' 9 text with
  | [_, code, submodule, _, _, _, _, _, path] =>
    if path = [] then .error .truncatedOrdinary else entryOf .ordinary code submodule path
  | _ => .error .truncatedOrdinary

/-- The kind that a score stands for; its first letter decides. -/
def kindOfScore? (score : List Char) (oldPath : String) : Option Entry.Kind :=
  match score with
  | 'R' :: _ => some (.renamed oldPath)
  | 'C' :: _ => some (.copied oldPath)
  | _ => none

/-- The fields are those of an ordinary entry with a score before the path. -/
def readRename (text source : List Char) : Except Fault Item :=
  match Text.fields ' ' 10 text with
  | [_, code, submodule, _, _, _, _, _, score, path] =>
    if path = [] then .error .truncatedRename
    else match kindOfScore? score (String.ofList source) with
      | none => .error .badScore
      | some kind => entryOf kind code submodule path
  | _ => .error .truncatedRename

/-- The fields are `u`, the code, the submodule, four modes, three object names and the path. -/
def readUnmerged (text : List Char) : Except Fault Item :=
  match Text.fields ' ' 11 text with
  | [_, code, submodule, _, _, _, _, _, _, _, path] =>
    if path = [] then .error .truncatedUnmerged else entryOf .conflicted code submodule path
  | _ => .error .truncatedUnmerged

/-- An entry of which only the path is written. -/
def pathOnly (kind : Entry.Kind) (code : String) (path : List Char) : Except Fault Item :=
  if path = [] then .error .missingPath
  else .ok (.entry ⟨kind, String.ofList path, code, none⟩)

/-- The item that a record describes. What follows the mark and the space begins at byte 2. -/
def readItem (record : Record) : Except Fault Item :=
  match record.text, Text.fromOffset? 2 record.text with
  | '#' :: ' ' :: _, some value => .ok (.header ⟨String.ofList value⟩)
  | '1' :: ' ' :: _, _ => readOrdinary record.text
  | '2' :: ' ' :: _, _ =>
    match record.source with
    | none | some [] => .error .missingSource
    | some source => readRename record.text source
  | 'u' :: ' ' :: _, _ => readUnmerged record.text
  | '?' :: ' ' :: _, some path => pathOnly .untracked "??" path
  | '!' :: ' ' :: _, some path => pathOnly .ignored "!!" path
  | _, _ => .error .unknownRecord

@[simp] theorem readItem_header (value : List Char) (source : Option (List Char)) :
    readItem ⟨'#' :: ' ' :: value, source⟩ = .ok (.header ⟨String.ofList value⟩) := by
  have h : Text.fromOffset? 2 ('#' :: ' ' :: value) = some value :=
    Text.fromOffset?_append ['#', ' '] value
  simp [readItem, h]

/-- The item that a record describes, or the error that names the record. -/
def read (record : Record) : Except Failure Item :=
  record.readItem.mapError fun fault =>
    .badStatus (String.ofList record.text) fault.reason

end Record

end GitReadout.Status
