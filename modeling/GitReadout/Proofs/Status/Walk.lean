import GitReadout.Proofs.Status.Stream
import GitReadout.Proofs.Text.Pieces

/-!
# The walk through a status output

How far the items of an output go, what ends them, and what a continued output adds to them. The
records of an output are the texts that stand in it with NUL between them (`Text.records_eq_iff`).

* `Cursor.next?_after`: the calls to a cursor yield its items one by one, and then nothing.
* `exists_walk`: the items are those of the written items at the beginning; a record that no written
  item begins with ends them with its error.
* `items_append`: what stands in front of a record that begins an item does not change what is read
  from there on.
* `items_walk`: all of this, for every output.
-/

set_option autoImplicit false

namespace GitReadout.Status

open Written

/-! ## Calls to a cursor -/

namespace Cursor

/-- The cursor after `n` calls. -/
def after (cursor : Cursor) : Nat → Cursor
  | 0 => cursor
  | n + 1 => cursor.next?.2.after n

theorem toList_next?_of_none {cursor : Cursor} (h : cursor.next?.1 = none) :
    cursor.next?.2.toList = [] := by
  unfold next? at h ⊢
  split at h
  · rename_i hpending
    simp [toList, drain, hpending]
  · rename_i hpending
    simp [toList, drain, drainInto, hpending]
  · split at h <;> cases h

/-- The `n`-th call yields the `n`-th item, and nothing once there are no more. -/
theorem next?_after (cursor : Cursor) (n : Nat) :
    (cursor.after n).next?.1 = cursor.toList[n]? := by
  induction n generalizing cursor with
  | zero =>
    rw [toList_next?, after]
    cases cursor.next?.1 <;> rfl
  | succ n ih =>
    rw [after, ih, toList_next? cursor]
    cases h : cursor.next?.1 with
    | none => simp [toList_next?_of_none h]
    | some item => simp

end Cursor

/-! ## Records that can be read -/

/-- What is read of the records before the first that cannot be read. -/
theorem exists_read_prefix (records : List Record) :
    ∃ (front : List Record) (found : List Item) (rest : List Record), records = front ++ rest ∧
      List.Forall₂ (fun record item => record.read = .ok item) front found ∧
      ∀ record ∈ rest.head?, ∃ e, record.read = .error e := by
  induction records with
  | nil => exact ⟨[], [], [], rfl, .nil, by simp⟩
  | cons record records ih =>
    cases hread : record.read with
    | error e => exact ⟨[], [], record :: records, rfl, .nil, by simp [hread]⟩
    | ok item =>
      obtain ⟨front, found, rest, rfl, hfront, hrest⟩ := ih
      exact ⟨record :: front, item :: found, rest, rfl, .cons hread hfront, hrest⟩

theorem exists_fault_of_read {record : Record} {e : Failure} (h : record.read = .error e) :
    ∃ fault : Fault, e = .badStatus (String.ofList record.text) fault.reason := by
  unfold Record.read at h
  cases hread : record.readItem with
  | ok item =>
    rw [hread] at h
    cases h
  | error fault =>
    rw [hread] at h
    cases h
    exact ⟨fault, rfl⟩

/-! ## Records of written items -/

/-- Whether the records of a written item stand at the beginning. -/
def Written.Begins (records : List (List Char)) : Prop :=
  ∃ written : Written, written.texts <+: records

theorem toList_written_append (ws : List Written) (rest : List Record) :
    (⟨some (ws.map record ++ rest)⟩ : Cursor).toList =
      ws.map (fun written => .ok written.item) ++ (⟨some rest⟩ : Cursor).toList := by
  induction ws with
  | nil => rfl
  | cons written ws ih =>
    have hread := read_eq_ok_iff.2 (readItem_record written)
    rw [List.map_cons, List.cons_append, Cursor.toList_cons_ok hread, ih, List.map_cons,
      List.cons_append]

/-- A record that cannot be read begins no written item, whatever follows it. -/
theorem not_begins_of_group {texts : List (List Char)} {record : Record} {more : List Record}
    {e : Failure} (hgroup : Record.group texts = record :: more) (hread : record.read = .error e) :
    ¬Begins texts := by
  rintro ⟨written, rest, rfl⟩
  have hwritten := Record.group_texts_append [written] rest
  rw [List.flatMap_singleton, hgroup, List.map_singleton, List.singleton_append] at hwritten
  cases hwritten
  rw [read_eq_ok_iff.2 (readItem_record written)] at hread
  cases hread

/-! ## The walk -/

/-- The records of an output are those of written items and then, if there are more, a record that
begins none; the items are those that were written, and the error of that record. -/
theorem exists_walk (output : String) :
    ∃ (ws : List Written) (rest : List (List Char)),
      Text.records '\x00' output.toList = ws.flatMap texts ++ rest ∧
      (rest = [] ∧ items output = ws.map (fun written => .ok written.item) ∨
        ∃ record more, ∃ fault : Fault, rest = record :: more ∧ ¬Begins rest ∧
          items output = ws.map (fun written => .ok written.item) ++
            [.error (.badStatus (String.ofList record) fault.reason)]) := by
  obtain ⟨front, found, rest, hrecords, hfront, hrest⟩ :=
    exists_read_prefix (Record.ofOutput output)
  obtain ⟨ws, rfl, rfl⟩ := exists_written_of_forall₂ hfront fun record hmem item hread =>
    exists_written_of_mem_ofOutput (hrecords ▸ List.mem_append_left _ hmem) hread
  have hitems : items output =
      ws.map (fun written => .ok written.item) ++ (⟨some rest⟩ : Cursor).toList := by
    rw [items, Cursor.ofOutput, hrecords, toList_written_append]
  have htexts := Record.flatMap_texts_group (Text.records '\x00' output.toList)
  rw [← Record.ofOutput, hrecords, List.flatMap_append, List.flatMap_map] at htexts
  refine ⟨ws, rest.flatMap Record.texts, htexts.symm, ?_⟩
  cases rest with
  | nil => exact .inl ⟨rfl, by rw [hitems, Cursor.toList_nil, List.append_nil]⟩
  | cons record more =>
    obtain ⟨e, hread⟩ := hrest record rfl
    obtain ⟨fault, rfl⟩ := exists_fault_of_read hread
    -- the rest of the stream is grouped as it was when it stood behind the written items
    have hgroup : Record.group ((record :: more).flatMap Record.texts) = record :: more := by
      have h := hrecords
      rw [Record.ofOutput, ← htexts] at h
      exact List.append_cancel_left ((Record.group_texts_append ws _).symm.trans h)
    refine .inr ⟨record.text, _, fault, rfl, not_begins_of_group hgroup hread, ?_⟩
    rw [hitems, Cursor.toList_cons_error hread]

/-! ## A continued output -/

theorem exists_written_of_no_error {output : String} (h : ∀ e, .error e ∉ items output) :
    ∃ ws : List Written, Text.records '\x00' output.toList = ws.flatMap texts ∧
      items output = ws.map fun written => .ok written.item := by
  obtain ⟨ws, rest, hrecords, ⟨rfl, hitems⟩ | ⟨record, more, fault, -, -, hitems⟩⟩ :=
    exists_walk output
  · exact ⟨ws, by rw [hrecords, List.append_nil], hitems⟩
  · exact absurd (hitems ▸ by simp) (h (.badStatus (String.ofList record) fault.reason))

theorem records_append {output later : String} (hended : output.toList.getLast? = some '\x00')
    (houtput : output ≠ "\x00") (hlater : later ≠ "\x00") :
    Text.records '\x00' (output ++ later).toList =
      Text.records '\x00' output.toList ++ Text.records '\x00' later.toList := by
  obtain ⟨front, hfront⟩ := List.getLast?_eq_some_iff.1 hended
  have hne : front ≠ [] := by
    rintro rfl
    exact houtput (String.toList_injective hfront)
  have hrest : later.toList ≠ ['\x00'] := fun h => hlater (String.toList_injective h)
  rw [String.toList_append, hfront, Text.records_append hne hrest]

theorem items_append {output later : String} (hended : output.toList.getLast? = some '\x00')
    (houtput : output ≠ "\x00") (hread : ∀ e, .error e ∉ items output) (hlater : later ≠ "\x00") :
    items (output ++ later) = items output ++ items later := by
  obtain ⟨ws, hws, hitems⟩ := exists_written_of_no_error hread
  have hgroup : Record.ofOutput (output ++ later) = ws.map record ++ Record.ofOutput later := by
    rw [Record.ofOutput, records_append hended houtput hlater, hws, Record.group_texts_append,
      Record.ofOutput]
  calc items (output ++ later)
      = (⟨some (ws.map record ++ Record.ofOutput later)⟩ : Cursor).toList := by
        rw [items, Cursor.ofOutput, hgroup]
    _ = ws.map (fun written => .ok written.item) ++ items later := toList_written_append ws _
    _ = items output ++ items later := by rw [hitems]

/-- **The walk through an output.** The cursor yields the items that are written at the beginning of
the output. If a record comes that begins no item, it yields the error of that record, the first
such. Then it yields nothing at any further call. What stands in front of a terminator and can be
read does not change what is read behind it. -/
theorem items_walk (output : String) :
    (∃ (ws : List Written) (rest : List (List Char)),
      Text.records '\x00' output.toList = ws.flatMap texts ++ rest ∧
      (rest = [] ∧ items output = ws.map (fun written => .ok written.item) ∨
        ∃ record more, ∃ fault : Fault, rest = record :: more ∧ ¬Begins rest ∧
          items output = ws.map (fun written => .ok written.item) ++
            [.error (.badStatus (String.ofList record) fault.reason)])) ∧
    (∀ n, ((Cursor.ofOutput output).after n).next?.1 = (items output)[n]?) ∧
    ∀ later, later ≠ "\x00" →
      output = "" ∨ output.toList.getLast? = some '\x00' ∧ output ≠ "\x00" ∧
        (∀ e, .error e ∉ items output) →
      items (output ++ later) = items output ++ items later := by
  refine ⟨exists_walk output, Cursor.next?_after (Cursor.ofOutput output), ?_⟩
  rintro later hlater (rfl | ⟨hended, houtput, hread⟩)
  · rw [String.empty_append]
    rfl
  · exact items_append hended houtput hread hlater

/-- The source of a rename belongs to it also when it looks like a record of its own, and what comes
behind it is read as if it stood alone. -/
theorem items_walk_rename :
    items ("2 R. N... 1 1 1 a a R1 new\x00? old\x00" ++ "? path\x00x") =
      items "2 R. N... 1 1 1 a a R1 new\x00? old\x00" ++ items "? path\x00x" := by
  have hread : (items "2 R. N... 1 1 1 a a R1 new\x00? old\x00").all Except.isOk = true := by
    decide +kernel
  exact (items_walk "2 R. N... 1 1 1 a a R1 new\x00? old\x00").2.2 "? path\x00x" (by decide)
    (.inr ⟨by decide, by decide, fun e he => by cases List.all_eq_true.1 hread _ he⟩)

end GitReadout.Status
