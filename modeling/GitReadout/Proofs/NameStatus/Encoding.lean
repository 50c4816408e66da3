import GitReadout.NameStatus.Change
import GitReadout.Proofs.NameStatus.Cursor
import Mathlib.Data.List.Induction

/-!
# Decoding and encoding name-status records

Records are written token by token, with a NUL after each token of which the very last may be
missing. The main theorem goes both ways: whatever blank tokens and line feeds are added to the
encoding of records, they are read back, one change for each of them; and an output that can be read
holds the encoding of the records read, once its blank tokens and line feeds are taken away.

* `tokensOf_of_encodes`: an encoding gives its tokens back.
* `collect_lenient`: tolerant of unknown codes, the reading of records only fails where the walk
  over the tokens did.
-/

set_option autoImplicit false

namespace GitReadout.NameStatus

/-- Tokens with a NUL after each of them. -/
def encode (tokens : List String) : String :=
  String.ofList (Text.ended '\x00' (tokens.map String.toList))

/-- The output is the encoding of the tokens, with or without its very last NUL. -/
def Encodes (tokens : List String) (output : String) : Prop :=
  output = encode tokens ∨ output.toList = (encode tokens).toList.dropLast

instance (tokens : List String) (output : String) : Decidable (Encodes tokens output) :=
  inferInstanceAs (Decidable (_ ∨ _))

/-- The change says what the record says, with the status that the record's code and source have,
and names the commit that the caller asked about. -/
def Change.Describes (commitish : String) (record : Record) (change : Change) : Prop :=
  change.path = record.path ∧ change.commitish = commitish ∧
    ofCode record.code record.oldPath .lenient = .ok change.status

/-! ## Tokens -/

theorem tokensOf_of_encodes {tokens : List String} {output : String} (h : Encodes tokens output)
    (hnul : ∀ t ∈ tokens, '\x00' ∉ t.toList) (hlast : tokens.getLast? ≠ some "") :
    (tokensOf output).toList = tokens := by
  have htexts : ∀ s ∈ tokens.map String.toList, '\x00' ∉ s := by
    simpa using hnul
  have hnonempty : (tokens.map String.toList).getLast? ≠ some [] := by
    simpa [List.getLast?_map] using hlast
  have hrecords : Text.records '\x00' output.toList = tokens.map String.toList := by
    by_cases hne : tokens.map String.toList = []
    · rcases h with rfl | h
      · simp [encode, hne]
      · simp [h, encode, hne]
    · unfold Encodes encode at h
      rw [Text.ended_eq_joined hne] at h
      rcases h with rfl | h
      · rw [String.toList_ofList]
        exact Text.records_joined_concat htexts hnonempty
      · rw [h, String.toList_ofList, List.dropLast_concat]
        exact Text.records_joined htexts hnonempty
  simp [tokensOf, hrecords]

theorem not_mem_of_mem_tokensOf {output : String} :
    ∀ t ∈ (tokensOf output).toList, '\x00' ∉ t.toList := by
  intro t ht
  obtain ⟨s, hs, rfl⟩ := List.mem_map.1 (by simpa [tokensOf] using ht)
  rw [String.toList_ofList]
  exact Text.not_mem_of_mem_records hs

theorem Placed.not_mem_of_mem_tokens {p : Placed} : ∀ t ∈ p.tokens, '\x00' ∉ t.toList := by
  intro t ht
  have hfeeds : ∀ n, '\x00' ∉ feeds n := fun n hc => by
    simpa using List.eq_of_mem_replicate hc
  simp only [Placed.tokens, List.mem_append, List.mem_cons, List.not_mem_nil, or_false,
    Option.mem_toList] at ht
  rcases ht with hblank | rfl | hsource | rfl
  · obtain ⟨n, -, rfl⟩ := List.mem_map.1 hblank
    rw [String.toList_ofList]
    exact hfeeds n
  · rw [Placed.codeToken, String.toList_ofList, List.mem_append]
    exact fun hc => hc.elim (hfeeds _) p.isWritable.code_nul
  · exact p.isWritable.source_nul t hsource
  · exact p.isWritable.path_nul

theorem getLast?_flatMap_tokens (placed : List Placed) :
    (placed.flatMap Placed.tokens).getLast? ≠ some "" := by
  induction placed using List.reverseRecOn with
  | nil => simp
  | append_singleton placed p _ =>
    have hp : (p.tokens).getLast? = some p.record.path := by
      simp [Placed.tokens, List.getLast?_append, List.getLast?_cons]
    rw [List.flatMap_append, List.flatMap_singleton, List.getLast?_append, hp, Option.some_or]
    exact fun h => p.isWritable.path_ne (Option.some.inj h)

theorem tokensOf_placed {placed : List Placed} {output : String}
    (h : Encodes (placed.flatMap Placed.tokens) output) :
    (tokensOf output).toList = placed.flatMap Placed.tokens := by
  refine tokensOf_of_encodes h (fun t ht => ?_) (getLast?_flatMap_tokens placed)
  obtain ⟨p, -, ht⟩ := List.mem_flatMap.1 ht
  exact Placed.not_mem_of_mem_tokens t ht

/-! ## Changes -/

theorem collect_lenient {commitish : String} {fault : Option Failure} {found : List Record} :
    ∀ changes, (Change.collect commitish .lenient fault found).result = .ok changes ↔
      fault = none ∧ List.Forall₂ (Change.Describes commitish) found changes := by
  induction found with
  | nil =>
    intro changes
    rw [Change.collect_nil]
    cases fault <;> simp [eq_comm]
  | cons record rest ih =>
    intro changes
    obtain ⟨status, hstatus⟩ := ofCode_lenient record.code record.oldPath
    rw [Change.collect_cons_ok (Record.toChange_of_ok hstatus commitish), map_eq_ok_iff]
    constructor
    · rintro ⟨others, hothers, rfl⟩
      obtain ⟨hfault, hall⟩ := (ih others).1 hothers
      exact ⟨hfault, .cons ⟨rfl, rfl, hstatus⟩ hall⟩
    · rintro ⟨hfault, hall⟩
      obtain ⟨change, others, ⟨hpath, hcommitish, hcode⟩, hothers, rfl⟩ :=
        List.forall₂_cons_left_iff.1 hall
      refine ⟨others, (ih others).2 ⟨hfault, hothers⟩, ?_⟩
      obtain rfl : status = change.status := by
        rw [hstatus] at hcode
        exact Except.ok.inj hcode
      rw [← hpath, ← hcommitish]

theorem exists_describes (commitish : String) (found : List Record) :
    ∃ changes, List.Forall₂ (Change.Describes commitish) found changes := by
  induction found with
  | nil => exact ⟨[], .nil⟩
  | cons record rest ih =>
    obtain ⟨changes, hall⟩ := ih
    obtain ⟨status, hstatus⟩ := ofCode_lenient record.code record.oldPath
    exact ⟨⟨record.path, status, commitish⟩ :: changes, .cons ⟨rfl, rfl, hstatus⟩ hall⟩

theorem records_placed {placed : List Placed} {output : String}
    (h : Encodes (placed.flatMap Placed.tokens) output) :
    records output = (placed.map Placed.record, none) := by
  have hdrop : (tokensOf output).toList.drop 0 = placed.flatMap Placed.tokens ++ [] := by
    rw [List.drop_zero, List.append_nil, tokensOf_placed h]
  rw [records, recordsFrom_of_drop hdrop (by simp)]
  rfl

theorem exists_placed_of_records {output : String} {found : List Record}
    (h : records output = (found, none)) :
    ∃ placed : List Placed, found = placed.map Placed.record ∧
      found.flatMap Record.tokens = bareTokens (tokensOf output).toList := by
  obtain ⟨placed, rest, hdrop, hrest, hfound⟩ :=
    exists_placed_of_recordsFrom not_mem_of_mem_tokensOf h
  rw [List.drop_zero] at hdrop
  have hfound : found = placed.map Placed.record := by simpa using hfound
  refine ⟨placed, hfound, ?_⟩
  rw [hfound, hdrop, bareTokens_placed placed hrest]

/-- The record as it stands in its own encoding, with nothing before it. -/
def Placed.bare (p : Placed) : Placed :=
  { p with blanks := [], leading := 0 }

theorem flatMap_tokens_bare (placed : List Placed) :
    (placed.map Placed.bare).flatMap Placed.tokens =
      (placed.map Placed.record).flatMap Record.tokens := by
  induction placed with
  | nil => rfl
  | cons p placed ih =>
    have hp : p.bare.tokens = p.record.tokens := by
      simp [Placed.tokens, Placed.bare, Placed.blankTokens, Placed.codeToken, feeds,
        Record.tokens]
    rw [List.map_cons, List.flatMap_cons, hp, ih]
    rfl

/-- **Decoding undoes encoding, and encoding undoes decoding.** -/
theorem parse_encoding (commitish : String) :
    (∀ (placed : List Placed) (output : String),
      Encodes (placed.flatMap Placed.tokens) output →
      ∃ changes, (Change.parse output commitish .lenient).result = .ok changes ∧
        List.Forall₂ (Change.Describes commitish) (placed.map Placed.record) changes) ∧
    ∀ (output : String) (changes : List Change),
      (Change.parse output commitish .lenient).result = .ok changes →
      ∃ found, records output = (found, none) ∧ (∀ record ∈ found, record.IsWritable) ∧
        List.Forall₂ (Change.Describes commitish) found changes ∧
        found.flatMap Record.tokens = bareTokens (tokensOf output).toList ∧
        (tokensOf (encode (found.flatMap Record.tokens))).toList =
          bareTokens (tokensOf output).toList ∧
        (Change.parse (encode (found.flatMap Record.tokens)) commitish .lenient).result =
          .ok changes := by
  constructor
  · intro placed output h
    obtain ⟨changes, hall⟩ := exists_describes commitish (placed.map Placed.record)
    refine ⟨changes, ?_, hall⟩
    rw [Change.parse, records_placed h]
    exact (collect_lenient changes).2 ⟨rfl, hall⟩
  · intro output changes h
    obtain ⟨hfault, hall⟩ := (collect_lenient changes).1 h
    have hrecords : records output = ((records output).1, none) := by rw [← hfault]
    obtain ⟨placed, hfound, hbare⟩ := exists_placed_of_records hrecords
    -- the encoding holds the same records with nothing before them, so the first half reads it
    have hencodes : Encodes ((placed.map Placed.bare).flatMap Placed.tokens)
        (encode ((records output).1.flatMap Record.tokens)) := by
      rw [flatMap_tokens_bare, ← hfound]
      exact .inl rfl
    refine ⟨_, hrecords, fun record hr => ?_, hall, hbare, ?_, ?_⟩
    · rw [hfound] at hr
      obtain ⟨p, -, rfl⟩ := List.mem_map.1 hr
      exact p.isWritable
    · rw [tokensOf_placed hencodes, flatMap_tokens_bare, ← hfound, hbare]
    · have hread : records (encode ((records output).1.flatMap Record.tokens)) =
          ((records output).1, none) := by
        rw [records_placed hencodes, List.map_map]
        conv => rhs; rw [hfound]
        rfl
      rw [Change.parse, hread]
      exact (collect_lenient changes).2 ⟨rfl, hall⟩

/-- A rename after two blank tokens, with a line feed in front of its code, then a change; the very
last NUL is missing. -/
theorem parse_encoding_renamed :
    ∃ found, records "\x00\n\n\x00\nR100\x00a\x00b\x00M\x00R" = (found, none) ∧
      (Change.parse "\x00\n\n\x00\nR100\x00a\x00b\x00M\x00R" "HEAD" .lenient).result =
        .ok [⟨"b", .renamed "a", "HEAD"⟩, ⟨"R", .modified, "HEAD"⟩] ∧
      (Change.parse (encode (found.flatMap Record.tokens)) "HEAD" .lenient).result =
        .ok [⟨"b", .renamed "a", "HEAD"⟩, ⟨"R", .modified, "HEAD"⟩] := by
  obtain ⟨changes, hparse, hall⟩ := (parse_encoding "HEAD").1
    [⟨⟨"R100", some "a", "b"⟩, by decide +kernel, [0, 2], 1⟩,
      ⟨⟨"M", none, "R"⟩, by decide +kernel, [], 0⟩]
    "\x00\n\n\x00\nR100\x00a\x00b\x00M\x00R" (by decide +kernel)
  have hchanges : changes = [⟨"b", .renamed "a", "HEAD"⟩, ⟨"R", .modified, "HEAD"⟩] := by
    have renamed : ofCode "R100" (some "a") .lenient = .ok (.renamed "a") := by rfl
    have modified : ofCode "M" none .lenient = .ok .modified := by rfl
    obtain _ | @⟨_, ⟨path, status, commitish⟩, _, _, ⟨rfl, rfl, hstatus⟩, hall⟩ := hall
    obtain _ | @⟨_, ⟨path, status', commitish⟩, _, _, ⟨rfl, rfl, hstatus'⟩, hall⟩ := hall
    obtain _ | _ := hall
    obtain rfl : FileStatus.renamed "a" = status := Except.ok.inj (renamed.symm.trans hstatus)
    obtain rfl : FileStatus.modified = status' := Except.ok.inj (modified.symm.trans hstatus')
    rfl
  obtain ⟨found, hfound, -, -, -, -, hagain⟩ := (parse_encoding "HEAD").2 _ _ hparse
  exact ⟨found, hfound, hchanges ▸ hparse, hchanges ▸ hagain⟩

end GitReadout.NameStatus
