import GitReadout.Proofs.Except
import GitReadout.Proofs.Text.Joined
import GitReadout.Status.Record

/-!
# Written items

The grammar of the status stream, as the items that can be written: a header, a tracked path with
its columns, a rename or copy with the record of its source, an unmerged, untracked or ignored path.
`Written.text` is the record of an item, and `Written.item` is what it says.

* `readItem_record`, `exists_written_of_readItem`: a record is read if and only if it is the record
  of a written item, and as that item.
-/

set_option autoImplicit false

namespace GitReadout.Status

/-! ## Submodules -/

/-- A flag is written as its letter when it is set and as a dot when it is not. -/
def flag (letter : Char) (isSet : Bool) : Char :=
  if isSet then letter else '.'

/-- The field of a submodule, or of a path that is none. -/
def Submodule.field : Option Submodule → List Char
  | none => ['N', '.', '.', '.']
  | some s =>
    ['S', flag 'C' s.newCommit, flag 'M' s.modifiedFiles, flag 'U' s.untrackedFiles]

theorem bytes_injective {s t : List Char} (h : Text.bytes s = Text.bytes t) : s = t := by
  have hs : (String.ofList s).toByteArray = (String.ofList t).toByteArray := by
    rw [String.toByteArray_ofList, String.toByteArray_ofList, List.utf8Encode, List.utf8Encode]
    exact congrArg _ h
  exact String.ofList_injective (String.toByteArray_inj.1 hs)

theorem readField?_field (submodule : Option Submodule) :
    Submodule.readField? (Submodule.field submodule) = some submodule := by
  obtain _ | ⟨_ | _, _ | _, _ | _⟩ := submodule <;> decide

theorem eq_flag_of_readFlag? {letter : Char} {byte : UInt8} {isSet : Bool}
    (h : Submodule.readFlag? letter.toUInt8 byte = some isSet) :
    byte = (flag letter isSet).toUInt8 := by
  unfold Submodule.readFlag? at h
  split at h
  · cases h
    assumption
  · split at h
    · cases h
      assumption
    · cases h

theorem eq_field_of_readField? {field : List Char} {submodule : Option Submodule}
    (h : Submodule.readField? field = some submodule) : field = Submodule.field submodule := by
  apply bytes_injective
  unfold Submodule.readField? at h
  split at h
  · rename_i kind commit changes files hbytes
    split at h
    · rename_i hkind
      split at h
      · rename_i hdots
        cases h
        simp only [List.all_cons, List.all_nil, Bool.and_true, Bool.and_eq_true,
          decide_eq_true_eq] at hdots
        rw [hbytes, hkind, hdots.1, hdots.2.1, hdots.2.2]
        decide
      · cases h
    · split at h
      · rename_i hkind
        obtain ⟨s, hflags, rfl⟩ := Option.map_eq_some_iff.1 h
        simp only [Submodule.readFlags?, Option.bind_eq_bind, Option.pure_def,
          Option.bind_eq_some_iff, Option.some.injEq] at hflags
        obtain ⟨newCommit, hc, modifiedFiles, hm, untrackedFiles, hu, rfl⟩ := hflags
        rw [hbytes, hkind, eq_flag_of_readFlag? hc, eq_flag_of_readFlag? hm,
          eq_flag_of_readFlag? hu]
        cases newCommit <;> cases modifiedFiles <;> cases untrackedFiles <;> decide
      · cases h
  · cases h

/-! ## The grammar -/

/-- The letters that a code may have on either side. -/
def codeLetters : List Char := ['.', 'M', 'T', 'A', 'D', 'R', 'C', 'U']

namespace Written

/-- A text without NUL. -/
abbrev Line := { s : String // '\x00' ∉ s.toList }

/-- A path: a text without NUL that is not empty. -/
abbrev Path := { s : String // s ≠ "" ∧ '\x00' ∉ s.toList }

/-- A column that is not read: any text, possibly empty, without space and NUL. -/
abbrev Column := { s : List Char // ' ' ∉ s ∧ '\x00' ∉ s }

/-- `n` columns that are not read. -/
abbrev Columns (n : Nat) := { columns : List Column // columns.length = n }

def Columns.texts {n : Nat} (columns : Columns n) : List (List Char) :=
  columns.1.map Subtype.val

abbrev Letter := { c : Char // c ∈ codeLetters }

/-- The code and the submodule of a tracked path. -/
structure Tracked where
  index : Letter
  worktree : Letter
  submodule : Option Submodule

def Tracked.code (tracked : Tracked) : List Char :=
  [tracked.index.1, tracked.worktree.1]

/-- A score: `R` or `C`, then any text without space and NUL. -/
structure Score where
  isCopy : Bool
  similarity : Column

def Score.text (score : Score) : List Char :=
  (if score.isCopy then 'C' else 'R') :: score.similarity.1

/-- What a score says of the path: its letter tells a copy from a rename. -/
def Score.kind (score : Score) (source : String) : Entry.Kind :=
  if score.isCopy then .copied source else .renamed source

end Written

open Written in
/-- An item as it is written. -/
inductive Written where
  | header (value : Line)
  | ordinary (tracked : Tracked) (columns : Columns 5) (path : Path)
  | moved (tracked : Tracked) (columns : Columns 5) (score : Score) (path source : Path)
  | unmerged (tracked : Tracked) (columns : Columns 7) (path : Path)
  | untracked (path : Path)
  | ignored (path : Path)

namespace Written

/-- The record of a tracked path: the mark, the code, the submodule and what follows them, with
spaces between. -/
def trackedText (mark : Char) (tracked : Tracked) (rest : List (List Char)) : List Char :=
  [' '].intercalate ([mark] :: tracked.code :: Submodule.field tracked.submodule :: rest)

/-- The record of an item. -/
def text : Written → List Char
  | header value => '#' :: ' ' :: value.1.toList
  | ordinary tracked columns path =>
    trackedText '1' tracked (columns.texts ++ [path.1.toList])
  | moved tracked columns score path _ =>
    trackedText '2' tracked (columns.texts ++ [score.text, path.1.toList])
  | unmerged tracked columns path =>
    trackedText 'u' tracked (columns.texts ++ [path.1.toList])
  | untracked path => '?' :: ' ' :: path.1.toList
  | ignored path => '!' :: ' ' :: path.1.toList

/-- The record that follows a rename or copy. -/
def source? : Written → Option (List Char)
  | moved _ _ _ _ source => some source.1.toList
  | _ => none

/-- What an item says. -/
def item : Written → Item
  | header value => .header ⟨value.1⟩
  | ordinary tracked _ path =>
    .entry ⟨.ordinary, path.1, String.ofList tracked.code, tracked.submodule⟩
  | moved tracked _ score path source =>
    .entry ⟨score.kind source.1, path.1, String.ofList tracked.code, tracked.submodule⟩
  | unmerged tracked _ path =>
    .entry ⟨.conflicted, path.1, String.ofList tracked.code, tracked.submodule⟩
  | untracked path => .entry ⟨.untracked, path.1, "??", none⟩
  | ignored path => .entry ⟨.ignored, path.1, "!!", none⟩

/-- The records of an item, which are two for a rename or copy. -/
def texts (written : Written) : List (List Char) :=
  written.text :: written.source?.toList

/-- The record of an item together with its source. -/
def record (written : Written) : Record :=
  ⟨written.text, written.source?⟩

end Written

/-! ## Reading one record -/

open Written

theorem exists_columns {n : Nat} {texts : List (List Char)} (hlen : texts.length = n)
    (h : ∀ s ∈ texts, ' ' ∉ s ∧ '\x00' ∉ s) : ∃ columns : Columns n, columns.texts = texts :=
  ⟨⟨texts.attach.map fun s => ⟨s.1, h s.1 s.2⟩, by simp [hlen]⟩, by
    simp [Columns.texts, List.map_map, Function.comp_def]⟩

theorem Written.Columns.length_texts {n : Nat} (columns : Columns n) :
    columns.texts.length = n := by
  simp [Columns.texts, columns.2]

theorem Written.Columns.not_mem_texts {n : Nat} {columns : Columns n} {s : List Char}
    (h : s ∈ columns.texts) : ' ' ∉ s ∧ '\x00' ∉ s := by
  obtain ⟨column, -, rfl⟩ := List.mem_map.1 h
  exact column.2

theorem isLetter_iff {c : Char} : Code.isLetter c = true ↔ c ∈ codeLetters := by
  simp [Code.isLetter, codeLetters]

theorem entryOf_tracked (kind : Entry.Kind) (tracked : Tracked) (path : List Char) :
    Record.entryOf kind tracked.code (Submodule.field tracked.submodule) path =
      .ok (.entry ⟨kind, String.ofList path, String.ofList tracked.code, tracked.submodule⟩) := by
  have hcode : Code.split? (String.ofList tracked.code) =
      some (tracked.index.1, tracked.worktree.1) :=
    Code.split?_eq_some_iff.2 (by simp [Tracked.code])
  simp [Record.entryOf, hcode, isLetter_iff.2 tracked.index.2, isLetter_iff.2 tracked.worktree.2,
    readField?_field]

theorem exists_tracked_of_entryOf {kind : Entry.Kind} {code submodule path : List Char}
    {item : Item} (h : Record.entryOf kind code submodule path = .ok item) :
    ∃ tracked : Tracked, code = tracked.code ∧ submodule = Submodule.field tracked.submodule ∧
      item = .entry ⟨kind, String.ofList path, String.ofList tracked.code, tracked.submodule⟩ := by
  unfold Record.entryOf at h
  split at h
  · cases h
  · rename_i x y hsplit
    split at h
    · rename_i hletters
      rw [Bool.and_eq_true] at hletters
      split at h
      · cases h
      · rename_i read hfield
        cases h
        have hcode : code = [x, y] := by simpa using Code.split?_eq_some_iff.1 hsplit
        exact ⟨⟨⟨x, isLetter_iff.1 hletters.1⟩, ⟨y, isLetter_iff.1 hletters.2⟩, read⟩, hcode,
          eq_field_of_readField? hfield, by rw [hcode]; rfl⟩
    · cases h

theorem Written.Tracked.not_mem_code (tracked : Tracked) : ' ' ∉ tracked.code := by
  intro h
  simp only [Tracked.code, List.mem_cons, List.not_mem_nil, or_false] at h
  rcases h with h | h
  · exact absurd (h ▸ tracked.index.2) (by decide)
  · exact absurd (h ▸ tracked.worktree.2) (by decide)

theorem not_mem_field (submodule : Option Submodule) : ' ' ∉ Submodule.field submodule := by
  obtain _ | ⟨_ | _, _ | _, _ | _⟩ := submodule <;> decide

section
variable {mark : Char} (front : List (List Char)) {last : List Char}

theorem fields_trackedText (last : List Char) (tracked : Tracked) (hmark : mark ≠ ' ')
    (hfront : ∀ s ∈ front, ' ' ∉ s) :
    Text.fields ' ' (front.length + 4) (trackedText mark tracked (front ++ [last])) =
      [mark] :: tracked.code :: Submodule.field tracked.submodule :: (front ++ [last]) := by
  refine (Text.fields_eq_iff (by simp)).2 ⟨rfl, fun s hs => ?_⟩
  rw [← List.cons_append, ← List.cons_append, ← List.cons_append, List.dropLast_concat] at hs
  simp only [List.mem_cons] at hs
  rcases hs with rfl | rfl | rfl | hs
  · simpa using hmark.symm
  · exact tracked.not_mem_code
  · exact not_mem_field _
  · exact hfront s hs

theorem eq_joined_of_fields {text rest first code submodule : List Char} (hmark : mark ≠ ' ')
    (htext : text = mark :: ' ' :: rest) (hnul : '\x00' ∉ text)
    (hfields : Text.fields ' ' (front.length + 4) text =
      first :: code :: submodule :: (front ++ [last])) :
    text = [' '].intercalate ([mark] :: code :: submodule :: (front ++ [last])) ∧
      (∀ s ∈ front, ' ' ∉ s ∧ '\x00' ∉ s) ∧ '\x00' ∉ last := by
  obtain ⟨hjoined, hparts⟩ := (Text.fields_eq_iff (by simp)).1 hfields
  rw [← List.cons_append, ← List.cons_append, ← List.cons_append, List.dropLast_concat] at hparts
  have hfirst : first = [mark] := by
    have h1 : Text.cut? ' ' text = some ([mark], rest) :=
      Text.cut?_eq_some_iff.2 ⟨by simpa using hmark.symm, htext⟩
    have h2 : Text.cut? ' ' text =
        some (first, [' '].intercalate (code :: submodule :: (front ++ [last]))) :=
      Text.cut?_eq_some_iff.2 ⟨hparts first (by simp), by rw [hjoined]; simp⟩
    rw [h1] at h2
    simp only [Option.some.injEq, Prod.mk.injEq] at h2
    exact h2.1.symm
  subst hfirst
  have hnone : ∀ s ∈ [mark] :: code :: submodule :: (front ++ [last]), '\x00' ∉ s :=
    fun s hs hc => hnul (hjoined ▸ Text.mem_joined_of_mem hs hc)
  exact ⟨hjoined, fun s hs => ⟨hparts s (by simp [hs]), hnone s (by simp [hs])⟩,
    hnone last (by simp)⟩

end

theorem exists_path {s : List Char} (hne : s ≠ []) (hnul : '\x00' ∉ s) :
    ∃ path : Path, path.1 = String.ofList s ∧ path.1.toList = s :=
  ⟨⟨String.ofList s, by simpa using hne, by simpa using hnul⟩, rfl, by simp⟩

theorem Written.Path.toList_ne_nil (path : Path) : path.1.toList ≠ [] := by
  simpa using path.2.1

/-! Each reader of a tracked path: what it reads on the records that are written, and what every
record is that it accepts. -/

theorem readOrdinary_text (tracked : Tracked) (columns : Columns 5) (path : Path) :
    Record.readOrdinary (ordinary tracked columns path).text =
      .ok (ordinary tracked columns path).item := by
  match hcolumns : columns.texts, Columns.length_texts columns with
  | [a, b, c, d, e], _ =>
    have hfields := fields_trackedText columns.texts path.1.toList tracked
      (by decide : '1' ≠ ' ') fun s hs => (Columns.not_mem_texts hs).1
    rw [hcolumns] at hfields
    simp only [List.length_cons, List.length_nil, List.cons_append, List.nil_append] at hfields
    simp [text, hcolumns, Record.readOrdinary, hfields, Path.toList_ne_nil path, entryOf_tracked,
      item]

theorem exists_ordinary {text rest : List Char} {item : Item}
    (h : Record.readOrdinary text = .ok item) (htext : text = '1' :: ' ' :: rest)
    (hnul : '\x00' ∉ text) :
    ∃ tracked columns path, text = (ordinary tracked columns path).text ∧
      item = (ordinary tracked columns path).item := by
  unfold Record.readOrdinary at h
  split at h
  · rename_i first code submodule a b c d e last hfields
    split at h
    · cases h
    · rename_i hlast
      obtain ⟨hjoined, hfront, hnone⟩ :=
        eq_joined_of_fields [a, b, c, d, e] (by decide) htext hnul hfields
      obtain ⟨tracked, rfl, rfl, rfl⟩ := exists_tracked_of_entryOf h
      obtain ⟨columns, hcolumns⟩ := exists_columns (n := 5) rfl hfront
      obtain ⟨path, hpath, hlist⟩ := exists_path hlast hnone
      refine ⟨tracked, columns, path, ?_, ?_⟩
      · rw [hjoined, Written.text, trackedText, hcolumns, hlist]
      · rw [Written.item, hpath]
  · cases h

theorem readUnmerged_text (tracked : Tracked) (columns : Columns 7) (path : Path) :
    Record.readUnmerged (unmerged tracked columns path).text =
      .ok (unmerged tracked columns path).item := by
  match hcolumns : columns.texts, Columns.length_texts columns with
  | [a, b, c, d, e, f, g], _ =>
    have hfields := fields_trackedText columns.texts path.1.toList tracked
      (by decide : 'u' ≠ ' ') fun s hs => (Columns.not_mem_texts hs).1
    rw [hcolumns] at hfields
    simp only [List.length_cons, List.length_nil, List.cons_append, List.nil_append] at hfields
    simp [text, hcolumns, Record.readUnmerged, hfields, Path.toList_ne_nil path, entryOf_tracked,
      item]

theorem exists_unmerged {text rest : List Char} {item : Item}
    (h : Record.readUnmerged text = .ok item) (htext : text = 'u' :: ' ' :: rest)
    (hnul : '\x00' ∉ text) :
    ∃ tracked columns path, text = (unmerged tracked columns path).text ∧
      item = (unmerged tracked columns path).item := by
  unfold Record.readUnmerged at h
  split at h
  · rename_i first code submodule a b c d e f g last hfields
    split at h
    · cases h
    · rename_i hlast
      obtain ⟨hjoined, hfront, hnone⟩ :=
        eq_joined_of_fields [a, b, c, d, e, f, g] (by decide) htext hnul hfields
      obtain ⟨tracked, rfl, rfl, rfl⟩ := exists_tracked_of_entryOf h
      obtain ⟨columns, hcolumns⟩ := exists_columns (n := 7) rfl hfront
      obtain ⟨path, hpath, hlist⟩ := exists_path hlast hnone
      refine ⟨tracked, columns, path, ?_, ?_⟩
      · rw [hjoined, Written.text, trackedText, hcolumns, hlist]
      · rw [Written.item, hpath]
  · cases h

theorem kindOfScore?_text (score : Score) (source : String) :
    Record.kindOfScore? score.text source = some (score.kind source) := by
  obtain ⟨_ | _, similarity⟩ := score <;> rfl

theorem exists_score {score : List Char} {source : String} {kind : Entry.Kind}
    (h : Record.kindOfScore? score source = some kind) (hcolumn : ' ' ∉ score ∧ '\x00' ∉ score) :
    ∃ s : Score, score = s.text ∧ kind = s.kind source := by
  unfold Record.kindOfScore? at h
  split at h
  · rename_i similarity
    cases h
    simp only [List.mem_cons, not_or] at hcolumn
    exact ⟨⟨false, similarity, hcolumn.1.2, hcolumn.2.2⟩, rfl, rfl⟩
  · rename_i similarity
    cases h
    simp only [List.mem_cons, not_or] at hcolumn
    exact ⟨⟨true, similarity, hcolumn.1.2, hcolumn.2.2⟩, rfl, rfl⟩
  · cases h

theorem Written.Score.not_mem_text (score : Score) : ' ' ∉ score.text := by
  obtain ⟨_ | _, similarity⟩ := score <;> simp [Score.text, similarity.2.1]

theorem readRename_text (tracked : Tracked) (columns : Columns 5) (score : Score)
    (path source : Path) :
    Record.readRename (moved tracked columns score path source).text source.1.toList =
      .ok (moved tracked columns score path source).item := by
  match hcolumns : columns.texts, Columns.length_texts columns with
  | [a, b, c, d, e], _ =>
    have hfront : ∀ s ∈ columns.texts ++ [score.text], ' ' ∉ s := by
      intro s hs
      rcases List.mem_append.1 hs with hs | hs
      · exact (Columns.not_mem_texts hs).1
      · exact List.mem_singleton.1 hs ▸ score.not_mem_text
    have hfields := fields_trackedText (columns.texts ++ [score.text]) path.1.toList tracked
      (by decide : '2' ≠ ' ') hfront
    rw [hcolumns] at hfields
    simp only [List.length_cons, List.length_nil, List.cons_append, List.nil_append] at hfields
    simp [text, hcolumns, Record.readRename, hfields, Path.toList_ne_nil path, kindOfScore?_text,
      entryOf_tracked, item]

theorem exists_moved {text rest : List Char} {item : Item} (source : Path)
    (h : Record.readRename text source.1.toList = .ok item) (htext : text = '2' :: ' ' :: rest)
    (hnul : '\x00' ∉ text) :
    ∃ tracked columns score path, text = (moved tracked columns score path source).text ∧
      item = (moved tracked columns score path source).item := by
  unfold Record.readRename at h
  split at h
  · rename_i first code submodule a b c d e similarity last hfields
    split at h
    · cases h
    · rename_i hlast
      split at h
      · cases h
      · rename_i kind hkind
        obtain ⟨hjoined, hfront, hnone⟩ :=
          eq_joined_of_fields [a, b, c, d, e, similarity] (by decide) htext hnul hfields
        obtain ⟨tracked, rfl, rfl, rfl⟩ := exists_tracked_of_entryOf h
        obtain ⟨score, rfl, rfl⟩ := exists_score hkind (hfront similarity (by simp))
        have hcolumn : ∀ s ∈ [a, b, c, d, e], ' ' ∉ s ∧ '\x00' ∉ s := fun s hs =>
          hfront s (by simp at hs ⊢; tauto)
        obtain ⟨columns, hcolumns⟩ := exists_columns (n := 5) rfl hcolumn
        obtain ⟨path, hpath, hlist⟩ := exists_path hlast hnone
        refine ⟨tracked, columns, score, path, ?_, ?_⟩
        · rw [hjoined, Written.text, trackedText, hcolumns, hlist]
          rfl
        · rw [Written.item, hpath, String.ofList_toList]
  · cases h

/-! All records, by their mark. -/

theorem fromOffset?_two {mark : Char} (h : mark.utf8Size = 1) (rest : List Char) :
    Text.fromOffset? 2 (mark :: ' ' :: rest) = some rest := by
  have hsize : Text.byteSize [mark, ' '] = 2 := by
    have hspace : ' '.utf8Size = 1 := by decide
    simp [Text.byteSize, h, hspace]
  simpa [hsize] using Text.fromOffset?_append [mark, ' '] rest

theorem pathOnly_path (kind : Entry.Kind) (code : String) (path : Path) :
    Record.pathOnly kind code path.1.toList = .ok (.entry ⟨kind, path.1, code, none⟩) := by
  simp [Record.pathOnly, Path.toList_ne_nil path]

theorem trackedText_eq (mark : Char) (tracked : Tracked) (rest : List (List Char)) :
    trackedText mark tracked rest = mark :: ' ' ::
      [' '].intercalate (tracked.code :: Submodule.field tracked.submodule :: rest) := by
  simp [trackedText]

theorem readItem_record (written : Written) : written.record.readItem = .ok written.item := by
  cases written with
  | header value => simp [record, text, source?, item]
  | ordinary tracked columns path =>
    rw [← readOrdinary_text]
    simp [record, text, Record.readItem, trackedText_eq]
  | moved tracked columns score path source =>
    rw [← readRename_text]
    obtain ⟨c, r, hsource⟩ := List.exists_cons_of_ne_nil (Path.toList_ne_nil source)
    simp [record, text, source?, Record.readItem, trackedText_eq, hsource]
  | unmerged tracked columns path =>
    rw [← readUnmerged_text]
    simp [record, text, Record.readItem, trackedText_eq]
  | untracked path =>
    simp [record, text, Record.readItem, fromOffset?_two (by decide : '?'.utf8Size = 1),
      pathOnly_path, item]
  | ignored path =>
    simp [record, text, Record.readItem, fromOffset?_two (by decide : '!'.utf8Size = 1),
      pathOnly_path, item]

theorem takesSource_text (written : Written) :
    Record.takesSource written.text = written.source?.isSome := by
  cases written <;> simp [text, source?, trackedText_eq, Record.takesSource]

theorem exists_path_of_pathOnly {kind : Entry.Kind} {code : String} {s : List Char} {item : Item}
    (h : Record.pathOnly kind code s = .ok item) (hnul : '\x00' ∉ s) :
    ∃ path : Path, path.1.toList = s ∧ item = .entry ⟨kind, path.1, code, none⟩ := by
  unfold Record.pathOnly at h
  split at h
  · cases h
  · rename_i hne
    cases h
    obtain ⟨path, hpath, hlist⟩ := exists_path hne hnul
    exact ⟨path, hlist, by rw [hpath]⟩

theorem exists_written_of_readItem {text : List Char} {source : Option (List Char)} {item : Item}
    (h : (⟨text, source⟩ : Record).readItem = .ok item) (hnul : '\x00' ∉ text)
    (hsource : ∀ s, source = some s → Record.takesSource text = true ∧ '\x00' ∉ s) :
    ∃ written : Written, written.record = ⟨text, source⟩ ∧ written.item = item := by
  have hnone : Record.takesSource text = false → source = none := fun hmark =>
    Option.eq_none_iff_forall_not_mem.2 fun s hs => by simp [(hsource s hs).1] at hmark
  unfold Record.readItem at h
  dsimp only at h
  split at h
  · rename_i rest value hvalue
    cases h
    rw [fromOffset?_two (by decide), Option.some.injEq] at hvalue
    subst hvalue
    refine ⟨header ⟨String.ofList rest, by simpa using fun hc => hnul (by simp [hc])⟩, ?_, rfl⟩
    simp [record, Written.text, source?, hnone rfl]
  · rename_i rest _
    obtain ⟨tracked, columns, path, htext, hitem⟩ := exists_ordinary h rfl hnul
    exact ⟨ordinary tracked columns path, by simp [record, source?, ← htext, hnone rfl],
      hitem.symm⟩
  · rename_i rest _
    split at h
    · cases h
    · cases h
    · rename_i s hne
      obtain ⟨path, hpath, hlist⟩ := exists_path (fun e => hne (by rw [e])) (hsource s rfl).2
      rw [← hlist] at h
      obtain ⟨tracked, columns, score, new, htext, hitem⟩ := exists_moved path h rfl hnul
      exact ⟨moved tracked columns score new path, by
        simp [record, source?, ← htext, hlist], hitem.symm⟩
  · rename_i rest _
    obtain ⟨tracked, columns, path, htext, hitem⟩ := exists_unmerged h rfl hnul
    exact ⟨unmerged tracked columns path, by simp [record, source?, ← htext, hnone rfl],
      hitem.symm⟩
  · rename_i rest value hvalue
    rw [fromOffset?_two (by decide), Option.some.injEq] at hvalue
    subst hvalue
    obtain ⟨path, hlist, hitem⟩ := exists_path_of_pathOnly h fun hc => hnul (by simp [hc])
    exact ⟨untracked path, by simp [record, Written.text, source?, hlist, hnone rfl],
      hitem.symm⟩
  · rename_i rest value hvalue
    rw [fromOffset?_two (by decide), Option.some.injEq] at hvalue
    subst hvalue
    obtain ⟨path, hlist, hitem⟩ := exists_path_of_pathOnly h fun hc => hnul (by simp [hc])
    exact ⟨ignored path, by simp [record, Written.text, source?, hlist, hnone rfl],
      hitem.symm⟩
  · cases h

/-! The records themselves are records of a stream: none is empty and none holds a NUL. -/

theorem nul_not_mem_trackedText {mark : Char} {tracked : Tracked} {rest : List (List Char)}
    (hmark : mark ≠ '\x00') (hrest : ∀ s ∈ rest, '\x00' ∉ s) :
    '\x00' ∉ trackedText mark tracked rest := by
  intro h
  rcases Text.mem_joined h with h | ⟨s, hs, h⟩
  · exact absurd h (by decide)
  · simp only [List.mem_cons] at hs
    rcases hs with rfl | rfl | rfl | hs
    · exact hmark (List.mem_singleton.1 h).symm
    · simp only [Tracked.code, List.mem_cons, List.not_mem_nil, or_false] at h
      rcases h with h | h
      · exact absurd (h ▸ tracked.index.2) (by decide)
      · exact absurd (h ▸ tracked.worktree.2) (by decide)
    · revert h
      obtain _ | ⟨_ | _, _ | _, _ | _⟩ := tracked.submodule <;> decide
    · exact hrest s hs h

theorem nul_not_mem_columns {n : Nat} {columns : Columns n} {more : List (List Char)}
    (hmore : ∀ s ∈ more, '\x00' ∉ s) : ∀ s ∈ columns.texts ++ more, '\x00' ∉ s := by
  intro s hs
  rcases List.mem_append.1 hs with hs | hs
  · exact (Columns.not_mem_texts hs).2
  · exact hmore s hs

theorem nul_not_mem_text (written : Written) : '\x00' ∉ written.text := by
  cases written with
  | header value => simpa [text] using value.2
  | ordinary tracked columns path =>
    refine nul_not_mem_trackedText (by decide) (nul_not_mem_columns fun s hs => ?_)
    exact List.mem_singleton.1 hs ▸ path.2.2
  | moved tracked columns score path source =>
    refine nul_not_mem_trackedText (by decide) (nul_not_mem_columns fun s hs => ?_)
    simp only [List.mem_cons, List.not_mem_nil, or_false] at hs
    rcases hs with rfl | rfl
    · obtain ⟨_ | _, similarity⟩ := score <;> simp [Score.text, similarity.2.2]
    · exact path.2.2
  | unmerged tracked columns path =>
    refine nul_not_mem_trackedText (by decide) (nul_not_mem_columns fun s hs => ?_)
    exact List.mem_singleton.1 hs ▸ path.2.2
  | untracked path => simpa [text] using path.2.2
  | ignored path => simpa [text] using path.2.2

theorem not_mem_of_mem_texts {written : Written} {s : List Char} (h : s ∈ written.texts) :
    s ≠ [] ∧ '\x00' ∉ s := by
  rcases List.mem_cons.1 h with rfl | h
  · exact ⟨by cases written <;> simp [text, trackedText_eq], nul_not_mem_text written⟩
  · cases written with
    | moved tracked columns score path source =>
      simp only [source?, Option.toList_some, List.mem_singleton] at h
      exact h ▸ ⟨Path.toList_ne_nil source, source.2.2⟩
    | _ => cases h

end GitReadout.Status
