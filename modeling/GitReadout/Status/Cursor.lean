import GitReadout.Status.Record

/-!
# Walking through a status output

A `Cursor` yields the items of a status output one after another. The first record that cannot be
read ends the walk: its error is yielded and nothing after it.

* `toList_next?`: the items of a cursor are the next one and those of what is left.
-/

set_option autoImplicit false

namespace GitReadout.Status

/-- A position in a status output; `none` after an error. -/
structure Cursor where
  pending : Option (List Record)
deriving DecidableEq

namespace Cursor

/-- The start of a status output. -/
def ofOutput (output : String) : Cursor :=
  ⟨some (Record.ofOutput output)⟩

/-- The next item or error, and the cursor after it. -/
def next? (cursor : Cursor) : Option (Except Failure Item) × Cursor :=
  match cursor.pending with
  | none => (none, cursor)
  | some [] => (none, cursor)
  | some (record :: rest) =>
    match record.read with
    | .ok item => (some (.ok item), ⟨some rest⟩)
    | .error e => (some (.error e), ⟨none⟩)

/-- Yields until nothing is left, after what was yielded before. -/
def drainInto (found : Array (Except Failure Item)) :
    List Record → Array (Except Failure Item) × Cursor
  | [] => (found, ⟨some []⟩)
  | record :: rest =>
    match record.read with
    | .ok item => drainInto (found.push (.ok item)) rest
    | .error e => (found.push (.error e), ⟨none⟩)

/-- All that the cursor yields, and the cursor after that. -/
def drain (cursor : Cursor) : List (Except Failure Item) × Cursor :=
  match cursor.pending with
  | none => ([], cursor)
  | some records =>
    let found := drainInto #[] records
    (found.1.toList, found.2)

/-- All that the cursor yields. -/
def toList (cursor : Cursor) : List (Except Failure Item) :=
  cursor.drain.1

theorem drainInto_fst (found : Array (Except Failure Item)) (records : List Record) :
    (drainInto found records).1.toList = found.toList ++ (drainInto #[] records).1.toList := by
  induction records generalizing found with
  | nil => simp [drainInto]
  | cons record rest ih =>
    unfold drainInto
    split
    · rw [ih, ih (#[].push _)]
      simp
    · simp

@[simp] theorem toList_none : (⟨none⟩ : Cursor).toList = [] := rfl

@[simp] theorem toList_nil : (⟨some []⟩ : Cursor).toList = [] := rfl

theorem toList_cons_ok {record : Record} {item : Item} (h : record.read = .ok item)
    (rest : List Record) :
    (⟨some (record :: rest)⟩ : Cursor).toList = .ok item :: (⟨some rest⟩ : Cursor).toList := by
  simp only [toList, drain, drainInto, h]
  rw [drainInto_fst]
  rfl

theorem toList_cons_error {record : Record} {e : Failure} (h : record.read = .error e)
    (rest : List Record) : (⟨some (record :: rest)⟩ : Cursor).toList = [.error e] := by
  simp [toList, drain, drainInto, h]

theorem toList_next? (cursor : Cursor) :
    cursor.toList = cursor.next?.1.elim [] fun item => item :: cursor.next?.2.toList := by
  obtain ⟨pending⟩ := cursor
  match pending with
  | none => rfl
  | some [] => rfl
  | some (record :: rest) =>
    cases h : record.read with
    | ok item => simp [toList_cons_ok h, next?, h]
    | error e => simp [toList_cons_error h, next?, h]

end Cursor

/-- All that can be read from a status output: its items, and the error of the first record that
cannot be read. -/
def items (output : String) : List (Except Failure Item) :=
  (Cursor.ofOutput output).toList

end GitReadout.Status
