import GitReadout.NameStatus.Code
import GitReadout.Text.Split

/-!
# Records of a name-status output

The output is a list of tokens. A record is a code and one path, or a scored code, the source and
the destination. The code may have line feeds in front, and blank tokens may stand where a code is
expected; a path may look like anything but may not be missing or empty.

* `le_of_findCode`: a code stands at or after the position from which it is sought.
* `lt_of_next?`: each record brings the position nearer to the end, so reading on ends.
* `recordsFrom_of_end`, `recordsFrom_of_record`: how it goes on.
-/

set_option autoImplicit false

namespace GitReadout.NameStatus

structure Record where
  code : String
  oldPath : Option String
  path : String
deriving DecidableEq

/-- The tokens of an output. -/
def tokensOf (output : String) : Array String :=
  ((Text.records '\x00' output.toList).map String.ofList).toArray

/-- A token at the place of a code, without the line feeds in front. -/
def codeOf (token : String) : String :=
  String.ofList (token.toList.dropWhile (· == '\n'))

/-- The first position from `index` on whose token is more than line feeds, with its code. -/
def findCode (tokens : Array String) (index : Nat) : Option (Nat × String) :=
  if h : index < tokens.size then
    if codeOf tokens[index] = "" then findCode tokens (index + 1)
    else some (index, codeOf tokens[index])
  else none
termination_by tokens.size - index

def pathAt (tokens : Array String) (index : Nat) (what code : String) : Except Failure String :=
  match tokens[index]? with
  | none | some "" =>
    .error (.badNameStatus index ("missing " ++ what ++ " for status " ++ Text.quote code))
  | some path => .ok path

/-- The record of the code at `index`, and the position after it. -/
def readAt (tokens : Array String) (index : Nat) (code : String) :
    Except Failure (Record × Nat) := do
  if isScored code then
    let oldPath ← pathAt tokens (index + 1) "source path" code
    let path ← pathAt tokens (index + 2) "destination path" code
    return (⟨code, some oldPath, path⟩, index + 3)
  else
    let path ← pathAt tokens (index + 1) "path" code
    return (⟨code, none, path⟩, index + 2)

/-- The record at or after `index`, and the position after it; `none` when only blank tokens are
left. -/
def next? (tokens : Array String) (index : Nat) : Except Failure (Option (Record × Nat)) :=
  match findCode tokens index with
  | none => .ok none
  | some (index, code) => (readAt tokens index code).map some

/-! ## Positions -/

theorem le_of_findCode {tokens : Array String} {index found : Nat} {code : String}
    (h : findCode tokens index = some (found, code)) : index ≤ found ∧ found < tokens.size := by
  fun_induction findCode tokens index with
  | case1 index hlt hblank ih => exact ⟨Nat.le_of_succ_le (ih h).1, (ih h).2⟩
  | case2 index hlt hcode =>
    cases h
    exact ⟨Nat.le_refl _, hlt⟩
  | case3 => cases h

theorem lt_size_of_pathAt {tokens : Array String} {index : Nat} {what code path : String}
    (h : pathAt tokens index what code = .ok path) : index < tokens.size := by
  unfold pathAt at h
  split at h
  · cases h
  · cases h
  · rename_i hpath
    exact (Array.getElem?_eq_some_iff.1 hpath).1

theorem lt_of_readAt {tokens : Array String} {index after : Nat} {code : String} {record : Record}
    (h : readAt tokens index code = .ok (record, after)) : index < after ∧ after ≤ tokens.size := by
  unfold readAt at h
  split at h
  · cases hold : pathAt tokens (index + 1) "source path" code with
    | error e => simp [hold, bind, Except.bind] at h
    | ok oldPath =>
      cases hpath : pathAt tokens (index + 2) "destination path" code with
      | error e => simp [hold, hpath, bind, Except.bind] at h
      | ok path =>
        simp only [hold, hpath, bind, Except.bind, pure, Except.pure, Except.ok.injEq,
          Prod.mk.injEq] at h
        have := lt_size_of_pathAt hpath
        omega
  · cases hpath : pathAt tokens (index + 1) "path" code with
    | error e => simp [hpath, bind, Except.bind] at h
    | ok path =>
      simp only [hpath, bind, Except.bind, pure, Except.pure, Except.ok.injEq,
        Prod.mk.injEq] at h
      have := lt_size_of_pathAt hpath
      omega

theorem lt_of_next? {tokens : Array String} {index after : Nat} {record : Record}
    (h : next? tokens index = .ok (some (record, after))) :
    index < after ∧ after ≤ tokens.size := by
  unfold next? at h
  split at h
  · cases h
  · rename_i found code hfound
    cases hread : readAt tokens found code with
    | error e => simp [hread, Except.map] at h
    | ok read =>
      simp only [hread, Except.map, Except.ok.injEq, Option.some.injEq] at h
      subst h
      have := le_of_findCode hfound
      have := lt_of_readAt hread
      omega

/-! ## All records -/

/-- The records from `index` on after those found before, and the error that ended the reading. -/
def recordsFrom (tokens : Array String) (index : Nat) (found : Array Record) :
    List Record × Option Failure :=
  match _h : next? tokens index with
  | .error e => (found.toList, some e)
  | .ok none => (found.toList, none)
  | .ok (some (record, after)) => recordsFrom tokens after (found.push record)
termination_by tokens.size - index
decreasing_by
  have := lt_of_next? _h
  omega

theorem recordsFrom_of_end {tokens : Array String} {index : Nat}
    (h : next? tokens index = .ok none) (found : Array Record) :
    recordsFrom tokens index found = (found.toList, none) := by
  unfold recordsFrom
  split <;> simp_all

theorem recordsFrom_of_record {tokens : Array String} {index after : Nat} {record : Record}
    (h : next? tokens index = .ok (some (record, after))) (found : Array Record) :
    recordsFrom tokens index found = recordsFrom tokens after (found.push record) := by
  conv => lhs; unfold recordsFrom
  split <;> simp_all

/-- The records of an output, and the error that ended the reading before its end. -/
def records (output : String) : List Record × Option Failure :=
  recordsFrom (tokensOf output) 0 #[]

end GitReadout.NameStatus
