import GitReadout.Log.TrailerBlock
import GitReadout.Proofs.Json.Name
import GitReadout.Proofs.Status.Written
import GitReadout.Proofs.Text.Offset

/-!
# Cuts between characters

Records, lines of trailers and names are cut at byte offsets, and the field of a submodule is read
byte by byte. The readers here do the same and have no answer where a cut is out of range or falls
inside a character. They always have one, and it is that of reading by characters.

* `Status.Record.itemWith_fromOffset?`, `Status.Record.itemWith_drop`: what follows the mark and the
  space of a record.
* `Log.TrailerBlock.slices?_eq`, `Log.TrailerBlock.cutAtSeparator?_eq`: what stands on the two sides
  of a separator.
* `Status.Submodule.readFieldAt?_eq`: the four bytes of a field.
* `cuts_between_characters`: all of this, with the beginnings of names.
-/

set_option autoImplicit false

namespace GitReadout

/-! ## Records -/

namespace Status.Record

/-- The item that a record describes, where `rest?` cuts off what follows the mark and the space;
`none` when it is needed and cannot be cut off. -/
def itemWith (rest? : List Char → Option (List Char)) (record : Record) :
    Option (Except Fault Item) :=
  match record.text with
  | '#' :: ' ' :: _ => (rest? record.text).map fun value => .ok (.header ⟨String.ofList value⟩)
  | '1' :: ' ' :: _ => some (readOrdinary record.text)
  | '2' :: ' ' :: _ =>
    match record.source with
    | none | some [] => some (.error .missingSource)
    | some source => some (readRename record.text source)
  | 'u' :: ' ' :: _ => some (readUnmerged record.text)
  | '?' :: ' ' :: _ => (rest? record.text).map (pathOnly .untracked "??")
  | '!' :: ' ' :: _ => (rest? record.text).map (pathOnly .ignored "!!")
  | _ => some (.error .unknownRecord)

/-- The marks of the records of which the text behind the mark is cut off. -/
def cutMarks : List Char := ['#', '?', '!']

theorem fromOffset?_mark {mark : Char} (h : mark ∈ cutMarks) (rest : List Char) :
    Text.fromOffset? 2 (mark :: ' ' :: rest) = some rest := by
  have hsize : cutMarks.all (·.utf8Size = 1) := by decide
  exact fromOffset?_two (of_decide_eq_true (List.all_eq_true.1 hsize mark h)) rest

theorem itemWith_eq {rest? : List Char → Option (List Char)}
    (h : ∀ mark ∈ cutMarks, ∀ rest, rest? (mark :: ' ' :: rest) = some rest) (record : Record) :
    record.itemWith rest? = some record.readItem := by
  obtain ⟨text, source⟩ := record
  unfold itemWith
  dsimp only
  split
  · rw [h _ (by decide), readItem_header]
    rfl
  · rfl
  · -- a source that is empty counts as missing
    split
    · rfl
    · rfl
    · rename_i source hne
      obtain ⟨c, rest, rfl⟩ := List.exists_cons_of_ne_nil hne
      rfl
  · rfl
  · rw [h _ (by decide)]
    simp [readItem, fromOffset?_mark (by decide : '?' ∈ cutMarks)]
  · rw [h _ (by decide)]
    simp [readItem, fromOffset?_mark (by decide : '!' ∈ cutMarks)]
  · -- no record of a known form, so neither reader has a case for it
    rw [readItem]
    dsimp only
    split <;> simp_all

theorem itemWith_drop (record : Record) :
    record.itemWith (fun text => some (text.drop 2)) = some record.readItem :=
  itemWith_eq (fun _ _ _ => rfl) record

theorem itemWith_fromOffset? (record : Record) :
    record.itemWith (Text.fromOffset? 2) = some record.readItem :=
  itemWith_eq (fun _ hmark rest => fromOffset?_mark hmark rest) record

end Status.Record

/-! ## Lines of trailers -/

namespace Log.TrailerBlock

/-- The two sides of the first `separator` of a line, `some none` where the line is not cut; `none`
when it is to be cut where it cannot. -/
def slices? (line : List Char) (separator : Char) : Option (Option (List Char × List Char)) :=
  match (Text.offsetOf? separator line).filter (0 < ·) with
  | none => some none
  | some offset => do
    let (before, _) ← Text.cutAt? offset line
    let after ← Text.fromOffset? (offset + separator.utf8Size) line
    return some (before, after)

/-- The key and the value that stand on the two sides of a separator. -/
def keyAndValue? (sides : List Char × List Char) : Option (List Char × List Char) :=
  if Text.trim sides.1 = [] then none else some (Text.trim sides.1, Text.trim sides.2)

theorem slices?_eq (line : List Char) (separator : Char) :
    slices? line separator = some ((Text.cut? separator line).filter (·.1 ≠ [])) := by
  by_cases hmem : separator ∈ line
  · obtain ⟨before, after, rfl, hbefore⟩ := List.eq_append_cons_of_mem hmem
    rw [slices?, Text.offsetOf?_append hbefore, Text.cut?_append hbefore, Option.filter_some,
      Option.filter_some]
    by_cases hne : before = []
    · simp [hne]
    · simp [Text.byteSize_pos_iff, hne, Text.cutAt?_append, Text.fromOffset?_append_cons]
  · rw [slices?, Text.offsetOf?, if_neg hmem, Text.cut?_of_not_mem hmem]
    rfl

theorem cutAtSeparator?_eq (line : List Char) (separator : Char) :
    cutAtSeparator? line separator = (Text.cut? separator line).bind keyAndValue? := by
  by_cases hmem : separator ∈ line
  · obtain ⟨before, after, rfl, hbefore⟩ := List.eq_append_cons_of_mem hmem
    rw [cutAtSeparator?_first hbefore, Text.cut?_append hbefore, Option.bind_some, keyAndValue?]
  · rw [Text.cut?_of_not_mem hmem, cutAtSeparator?_of_not_mem hmem]
    rfl

theorem map_slices? (line : List Char) (separator : Char) :
    (slices? line separator).map (·.bind keyAndValue?) =
      some (cutAtSeparator? line separator) := by
  rw [slices?_eq, cutAtSeparator?_eq, Option.map_some]
  obtain _ | ⟨_ | ⟨c, before⟩, after⟩ := Text.cut? separator line
  · rfl
  · rfl
  · rfl

end Log.TrailerBlock

/-! ## Submodules -/

namespace Status.Submodule

/-- The submodule that a field describes, read at the indices of its bytes; `none` when there is no
byte at an index. -/
def readFieldAt? (field : List Char) : Option (Option (Option Submodule)) :=
  let bytes := Text.bytes field
  if bytes.length = 4 then do
    let kind ← bytes[0]?
    if kind = 'N'.toUInt8 then
      return if bytes.drop 1 = Text.bytes ['.', '.', '.'] then some none else none
    else if kind = 'S'.toUInt8 then
      return (readFlags? (← bytes[1]?) (← bytes[2]?) (← bytes[3]?)).map some
    else return none
  else return none

theorem readFieldAt?_eq (field : List Char) : readFieldAt? field = some (readField? field) := by
  have hdots : Text.bytes ['.', '.', '.'] = ['.'.toUInt8, '.'.toUInt8, '.'.toUInt8] := by decide
  unfold readFieldAt? readField?
  rw [hdots]
  generalize Text.bytes field = bytes
  by_cases hlength : bytes.length = 4
  · match bytes, hlength with
    | [kind, commit, changes, files], _ =>
      by_cases hplain : kind = 'N'.toUInt8
      · simp [hplain]
      · by_cases hmodule : kind = 'S'.toUInt8
        · have hother : 'S'.toUInt8 ≠ 'N'.toUInt8 := by decide
          simp [hmodule, hother]
        · simp [hplain, hmodule]
  · rw [if_neg hlength]
    split
    · exact absurd rfl hlength
    · rfl

end Status.Submodule

/-! ## Names -/

/-- The name was read, from a text or from JSON. -/
def ObjectName.IsRead (name : ObjectName) : Prop :=
  (∃ text, parse text = .ok name) ∨ ∃ value, ofJson? value = some name

theorem ObjectName.IsRead.isCanonical {name : ObjectName} (h : name.IsRead) :
    name.IsCanonical := by
  obtain ⟨text, hparse⟩ | ⟨value, hjson⟩ := h
  · exact isCanonical_of_parse hparse
  · exact isCanonical_of_ofJson? hjson

/-! ## All cuts -/

open Log.TrailerBlock Status in
/-- A cut succeeds at an offset that is in range and on the boundary of a character. All cuts do, of
records, lines and names, and there is a byte at every index of a field. What they give is what
reading by characters gives: the text from the third character on, the two sides of the first
separator, the four characters of a field, and the first characters of a name. -/
theorem cuts_between_characters {name : ObjectName} (hname : name.IsRead) (n : Nat)
    (record : Record) (line : List Char) (separator : Char) (field : List Char) :
    (∀ text offset, (Text.fromOffset? offset text).isSome ↔
      (String.Pos.Raw.mk offset).IsValid (String.ofList text)) ∧
    (record.itemWith (Text.fromOffset? 2) = some record.readItem ∧
      record.itemWith (fun text => some (text.drop 2)) = some record.readItem) ∧
    (slices? line separator = some ((Text.cut? separator line).filter (·.1 ≠ [])) ∧
      (slices? line separator).map (·.bind keyAndValue?) =
        some (cutAtSeparator? line separator)) ∧
    (Submodule.readFieldAt? field = some (Submodule.readField? field) ∧
      ∀ submodule,
        Submodule.readField? field = some submodule ↔ field = Submodule.field submodule) ∧
    name.abbreviate? n = some (String.ofList (name.value.toList.take n)) :=
  ⟨fun _ _ => Text.isSome_fromOffset?_iff,
    ⟨record.itemWith_fromOffset?, record.itemWith_drop⟩,
    ⟨slices?_eq line separator, map_slices? line separator⟩,
    ⟨Submodule.readFieldAt?_eq field, fun submodule =>
      ⟨eq_field_of_readField?, fun hfield => hfield ▸ readField?_field submodule⟩⟩,
    hname.isCanonical.abbreviate?_eq n⟩

open Log.TrailerBlock Status in
/-- A path, a key and a separator with characters of several bytes, and a field of four bytes that
has three characters. -/
theorem cuts_between_characters_accented :
    ObjectName.IsRead ⟨"0123def"⟩ ∧
      (⟨"? é b".toList, none⟩ : Record).itemWith (Text.fromOffset? 2) =
        some (.ok (.entry ⟨.untracked, "é b", "??", none⟩)) ∧
      slices? "clé→ ü".toList '→' = some (some ("clé".toList, " ü".toList)) ∧
      Submodule.readFieldAt? "Sé.".toList = some none ∧
      (⟨"0123def"⟩ : ObjectName).abbreviate? 5 = some "0123d" := by
  have hname : ObjectName.IsRead ⟨"0123def"⟩ := .inl ⟨"0123DEF", by decide⟩
  obtain ⟨-, ⟨hrecord, -⟩, ⟨hline, -⟩, ⟨hfield, -⟩, hshort⟩ :=
    cuts_between_characters hname 5 ⟨"? é b".toList, none⟩ "clé→ ü".toList '→' "Sé.".toList
  exact ⟨hname, hrecord.trans (by decide), hline.trans (by decide), hfield.trans (by decide),
    hshort.trans (by decide)⟩

end GitReadout
