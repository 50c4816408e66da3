import GitReadout.Proofs.Status.Written
import GitReadout.Status.Cursor

/-!
# The status stream

Reading a whole output, against the grammar of written items.

* `flatMap_texts_group`, `group_texts_append`: grouping takes each source to its record and loses
  none.
* `readAll_of_writes`, `exists_writes_of_readAll`: what is written is read, and what is read was
  written.
* `readAll_eq_ok_iff`: an output is read without an error if and only if it is written in the
  grammar, and then as the items that were written.
-/

set_option autoImplicit false

namespace GitReadout.Status

/-- The stream of items: their records with NUL between them. -/
def Written.stream (items : List Written) : List Char :=
  ['\x00'].intercalate (items.flatMap texts)

/-- Whether `output` is the stream of `items`, with or without a last NUL. No item at all is written
as nothing, or as a NUL alone. -/
def Written.Writes (items : List Written) (output : String) : Prop :=
  output.toList = stream items ∨ output.toList = stream items ++ ['\x00']

/-- The items of an output in which every record can be read; the error of the first that cannot. -/
def readAll (output : String) : Except Failure (List Item) :=
  (items output).mapM id

open Written

/-! ## Records and their sources -/

namespace Record

/-- The records that a record and its source were. -/
def texts (record : Record) : List (List Char) :=
  record.text :: record.source.toList

theorem flatMap_texts_group : ∀ texts : List (List Char), (group texts).flatMap Record.texts = texts
  | [] => rfl
  | [_] => rfl
  | text :: next :: rest => by
    by_cases h : takesSource text
    · rw [group_of_takesSource h, List.flatMap_cons, flatMap_texts_group rest]
      rfl
    · rw [group_of_not_takesSource h, List.flatMap_cons, flatMap_texts_group (next :: rest)]
      rfl

theorem takesSource_of_mem_group : ∀ {texts : List (List Char)} {record : Record},
    record ∈ group texts → ∀ s, record.source = some s → takesSource record.text = true
  | [], _, h, _, _ => by cases h
  | [_], _, h, s, hs => by
    rw [group_singleton, List.mem_singleton] at h
    subst h
    cases hs
  | text :: next :: rest, record, h, s, hs => by
    by_cases htakes : takesSource text
    · rw [group_of_takesSource htakes] at h
      rcases List.mem_cons.1 h with rfl | h
      · exact htakes
      · exact takesSource_of_mem_group h s hs
    · rw [group_of_not_takesSource htakes] at h
      rcases List.mem_cons.1 h with rfl | h
      · cases hs
      · exact takesSource_of_mem_group h s hs

/-- Behind written items, records are grouped as if nothing stood before them. -/
theorem group_texts_append (items : List Written) (more : List (List Char)) :
    group (items.flatMap Written.texts ++ more) = items.map Written.record ++ group more := by
  induction items with
  | nil => rfl
  | cons written rest ih =>
    have htakes := takesSource_text written
    rw [List.flatMap_cons, List.map_cons, List.append_assoc, List.cons_append, ← ih, Written.texts,
      Written.record]
    cases hsource : written.source? with
    | none =>
      rw [hsource, Option.isSome_none] at htakes
      exact group_of_not_takesSource (by simp [htakes]) _
    | some s =>
      rw [hsource, Option.isSome_some] at htakes
      exact group_of_takesSource htakes s _

theorem group_texts (items : List Written) : group (items.flatMap Written.texts) =
    items.map Written.record := by
  simpa using group_texts_append items []

end Record

/-! ## Whole outputs -/

theorem mapM_toList (records : List Record) :
    (⟨some records⟩ : Cursor).toList.mapM id = records.mapM Record.read := by
  induction records with
  | nil => rfl
  | cons record rest ih =>
    cases h : record.read with
    | error e => rw [Cursor.toList_cons_error h, List.mapM_cons, List.mapM_cons, h]; rfl
    | ok item => rw [Cursor.toList_cons_ok h, List.mapM_cons, List.mapM_cons, h, ih]; rfl

theorem readAll_eq_mapM (output : String) :
    readAll output = (Record.ofOutput output).mapM Record.read :=
  mapM_toList _

theorem read_eq_ok_iff {record : Record} {item : Item} :
    record.read = .ok item ↔ record.readItem = .ok item :=
  mapError_eq_ok_iff

section
variable {ws : List Written}

theorem records_of_writes {output : String} (h : Writes ws output) :
    Text.records '\x00' output.toList = ws.flatMap texts := by
  have hmem : ∀ s ∈ ws.flatMap texts, s ≠ [] ∧ '\x00' ∉ s := by
    intro s hs
    obtain ⟨written, -, hs⟩ := List.mem_flatMap.1 hs
    exact not_mem_of_mem_texts hs
  have hnul : ∀ s ∈ ws.flatMap texts, '\x00' ∉ s := fun s hs => (hmem s hs).2
  have hlast : (ws.flatMap texts).getLast? ≠ some [] := fun hl =>
    (hmem [] (List.mem_of_getLast? hl)).1 rfl
  rcases h with h | h
  · rw [h, stream, Text.records_joined hnul hlast]
  · rw [h, stream, Text.records_joined_concat hnul hlast]

theorem readAll_of_writes {output : String} (h : Writes ws output) :
    readAll output = .ok (ws.map item) := by
  rw [readAll_eq_mapM, Record.ofOutput, records_of_writes h, Record.group_texts, mapM_eq_ok_iff,
    List.forall₂_map_left_iff, List.forall₂_map_right_iff, List.forall₂_same]
  exact fun written _ => read_eq_ok_iff.2 (readItem_record written)

end

theorem exists_written_of_mem_ofOutput {output : String} {record : Record} {item : Item}
    (h : record ∈ Record.ofOutput output) (hread : record.read = .ok item) :
    ∃ written : Written, written.record = record ∧ written.item = item := by
  -- the record and its source are records of the stream, so neither holds a NUL
  have hnul : ∀ s ∈ record.texts, '\x00' ∉ s := fun s hs => by
    refine Text.not_mem_of_mem_records (s := output.toList) ?_
    rw [← Record.flatMap_texts_group (Text.records '\x00' output.toList)]
    exact List.mem_flatMap.2 ⟨record, h, hs⟩
  exact exists_written_of_readItem (read_eq_ok_iff.1 hread)
    (hnul record.text (by simp [Record.texts]))
    fun s hs => ⟨Record.takesSource_of_mem_group h s hs, hnul s (by simp [Record.texts, hs])⟩

theorem exists_written_of_forall₂ {records : List Record} {items : List Item}
    (h : List.Forall₂ (fun record item => record.read = .ok item) records items)
    (hwritten : ∀ record ∈ records, ∀ item, record.read = .ok item →
      ∃ written : Written, written.record = record ∧ written.item = item) :
    ∃ ws : List Written, ws.map record = records ∧ ws.map item = items := by
  induction h with
  | nil => exact ⟨[], rfl, rfl⟩
  | @cons record item records items hread _ ih =>
    obtain ⟨hfirst, hrest⟩ := List.forall_mem_cons.1 hwritten
    obtain ⟨ws, hrecords, hitems⟩ := ih hrest
    obtain ⟨written, hrecord, hitem⟩ := hfirst item hread
    exact ⟨written :: ws, by rw [List.map_cons, hrecord, hrecords],
      by rw [List.map_cons, hitem, hitems]⟩

theorem exists_writes_of_readAll {output : String} {found : List Item}
    (h : readAll output = .ok found) :
    ∃ ws : List Written, Writes ws output ∧ ws.map item = found := by
  rw [readAll_eq_mapM, mapM_eq_ok_iff] at h
  obtain ⟨ws, hrecords, hitems⟩ := exists_written_of_forall₂ h
    fun record hr item hread => exists_written_of_mem_ofOutput hr hread
  have htexts := Record.flatMap_texts_group (Text.records '\x00' output.toList)
  rw [← Record.ofOutput, ← hrecords, List.flatMap_map] at htexts
  have hstream := Text.joined_records '\x00' output.toList
  rw [← htexts] at hstream
  exact ⟨ws, hstream, hitems⟩

/-! ## Single items -/

theorem read_of_getElem?_toList {records : List Record} {i : Nat} {item : Item}
    (h : (⟨some records⟩ : Cursor).toList[i]? = some (.ok item)) :
    ∃ record, records[i]? = some record ∧ record.read = .ok item := by
  induction records generalizing i with
  | nil => cases h
  | cons record rest ih =>
    cases hread : record.read with
    | error e =>
      -- nothing is yielded after an error
      rw [Cursor.toList_cons_error hread] at h
      cases i <;> cases h
    | ok first =>
      rw [Cursor.toList_cons_ok hread] at h
      cases i with
      | zero =>
        cases h
        exact ⟨record, rfl, hread⟩
      | succ i => exact ih h

/-- Every item that is yielded, also before a record that cannot be read, is that of a written
record at its place. -/
theorem exists_written_of_getElem?_items {output : String} {i : Nat} {item : Item}
    (h : (items output)[i]? = some (.ok item)) :
    ∃ written : Written, (Record.ofOutput output)[i]? = some written.record ∧
      written.item = item := by
  obtain ⟨record, hrecord, hread⟩ := read_of_getElem?_toList h
  obtain ⟨written, rfl, hitem⟩ :=
    exists_written_of_mem_ofOutput (List.mem_of_getElem? hrecord) hread
  exact ⟨written, hrecord, hitem⟩

/-! ## The grammar -/

/-- **Reading accepts exactly the grammar**: an output is read without an error if and only if it is
the stream of written items, and it is then read as what each of them says, in order. -/
theorem readAll_eq_ok_iff {output : String} {found : List Item} :
    readAll output = .ok found ↔
      ∃ ws : List Written, Writes ws output ∧ found = ws.map item := by
  constructor
  · intro h
    obtain ⟨ws, hwrites, hitems⟩ := exists_writes_of_readAll h
    exact ⟨ws, hwrites, hitems.symm⟩
  · rintro ⟨ws, hwrites, rfl⟩
    exact readAll_of_writes hwrites

end GitReadout.Status
