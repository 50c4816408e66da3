import GitReadout.Log.Query
import GitReadout.Proofs.Log.Batch
import GitReadout.Proofs.Log.Fields

/-!
# The log as it is written

A commit is written as the fields that the format asks for, in its order, and a log as the records
of its commits. What is written is read back, as long as the first separator of trailers is not
itself a place where lines, fields or records are cut.

* `Commit.parse_record`: one commit comes back from its record.
* `parseLog_log`: all of them come back from a log, with or without a last NUL.
-/

set_option autoImplicit false

namespace GitReadout.Log.Written

variable {separators : String}

/-- A commit as it is written in a repository with these separators of trailers. -/
structure Commit (separators : String) where
  sha : Hash
  shortSha : Hash
  summary : String
  summary_field : IsField summary.toList
  body : String
  body_field : IsField body.toList
  author : Identity
  committer : Identity
  parents : List Hash
  trailers : List (Trailer separators)
  /-- Whether a line feed ends the last trailer, or only stands between trailers. -/
  isEnded : Bool
  references : List Reference

namespace Commit

/-- The text for a placeholder of the format. -/
def expand (commit : Commit separators) : String → List Char
  | "%H" => commit.sha.1.toList
  | "%h" => commit.shortSha.1.toList
  | "%s" => commit.summary.toList
  | "%b" => commit.body.toList
  | "%an <%ae> %ad" => commit.author.text
  | "%cn <%ce> %cd" => commit.committer.text
  | "%P" => [' '].intercalate (commit.parents.map fun h => h.1.toList)
  | "%(trailers:unfold,only)" => Trailer.block commit.trailers commit.isEnded
  | "%D" => Reference.joined commit.references
  | _ => []

def record (commit : Commit separators) : List Char :=
  ['\x1F'].intercalate (formatFields.map commit.expand)

/-- What is read. -/
def value (commit : Commit separators) : Log.Commit where
  sha := commit.sha.name
  shortSha := commit.shortSha.name
  summary := commit.summary
  body := commit.body
  author := commit.author.value
  committer := commit.committer.value
  parents := commit.parents.map Hash.name
  trailers := .ofList (commit.trailers.map Trailer.pair)
  tags := commit.references.filterMap Reference.tag?

section
variable (commit : Commit separators)

theorem map_expand : formatFields.map commit.expand =
    [commit.sha.1.toList, commit.shortSha.1.toList, commit.summary.toList, commit.body.toList,
      commit.author.text, commit.committer.text,
      [' '].intercalate (commit.parents.map fun h => h.1.toList),
      Trailer.block commit.trailers commit.isEnded, Reference.joined commit.references] :=
  rfl

variable (h : ∀ trailer ∈ commit.trailers, trailer.IsLine)
include h

theorem isField_expand : ∀ field ∈ formatFields.map commit.expand, IsField field := by
  have hparents : IsField ([' '].intercalate (commit.parents.map fun h => h.1.toList)) := by
    refine isField_intercalate (by decide) fun s hs => ?_
    obtain ⟨hash, -, rfl⟩ := List.mem_map.1 hs
    exact hash.isField
  intro field hfield
  simp only [map_expand, List.mem_cons, List.not_mem_nil, or_false] at hfield
  rcases hfield with rfl | rfl | rfl | rfl | rfl | rfl | rfl | rfl | rfl
  · exact commit.sha.isField
  · exact commit.shortSha.isField
  · exact commit.summary_field
  · exact commit.body_field
  · exact commit.author.isField_text
  · exact commit.committer.isField_text
  · exact hparents
  · exact Trailer.isField_block commit.isEnded h
  · exact Reference.isField_joined commit.references

theorem nul_not_mem_record : '\x00' ∉ commit.record := by
  intro hnul
  rcases Text.mem_joined hnul with hc | ⟨field, hfield, hc⟩
  · exact absurd hc (by decide)
  · exact (commit.isField_expand h field hfield).2 hc

omit h in
theorem record_ne_nil : commit.record ≠ [] := by
  simp [record, map_expand]

theorem splitOn_record : commit.record.splitOn '\x1F' = formatFields.map commit.expand :=
  List.splitOn_intercalate '\x1F' (fun field hf => (commit.isField_expand h field hf).1)
    (by simp [map_expand])

omit h in
/-- The fields of the record. -/
def fields : RecordFields where
  sha := commit.sha.1
  shortSha := commit.shortSha.1
  summary := commit.summary
  body := commit.body
  author := String.ofList commit.author.text
  committer := String.ofList commit.committer.text
  parents := String.ofList ([' '].intercalate (commit.parents.map fun h => h.1.toList))
  trailers := String.ofList (Trailer.block commit.trailers commit.isEnded)
  decoration := String.ofList (Reference.joined commit.references)

theorem areOf_record : commit.fields.AreOf commit.record := by
  rw [RecordFields.AreOf, commit.splitOn_record h, map_expand]
  simp [fields, RecordFields.toList]

omit h in
theorem areGood_fields : commit.fields.AreGood where
  sha := commit.sha.2
  shortSha := commit.shortSha.2
  author := by simp [fields, commit.author.parse?_text]
  committer := by simp [fields, commit.committer.parse?_text]
  parents := by
    intro word hword
    rw [fields, String.toList_ofList, words_parents] at hword
    obtain ⟨hash, -, rfl⟩ := List.mem_map.1 hword
    exact hash.2

theorem describe_value : commit.fields.Describe separators commit.value where
  sha := rfl
  shortSha := rfl
  summary := rfl
  body := rfl
  author := commit.author.parse?_text
  committer := commit.committer.parse?_text
  parents := by
    rw [fields, String.toList_ofList, words_parents, value, List.map_map, List.map_map]
    rfl
  trailers := (Trailer.parse_block commit.isEnded h).symm
  tags := (Reference.tags_joined commit.references).symm

theorem parse_record :
    Log.Commit.parse (String.ofList commit.record) separators = .ok commit.value :=
  parse_eq_ok_iff.2 ⟨commit.fields, commit.areOf_record h, commit.areGood_fields,
    commit.describe_value h⟩

end

end Commit

/-- The log of commits: their records with NUL between them. -/
def log (commits : List (Commit separators)) : List Char :=
  ['\x00'].intercalate (commits.map Commit.record)

/-- **The log comes back as it was written.** Every commit is read, in order, from the records that
stand in a log with NUL between them, and a NUL after the last of them changes nothing. The first
separator must not be one at which lines, fields or records are cut, if there are trailers at
all. -/
theorem parseLog_log (commits : List (Commit separators))
    (h : ∀ commit ∈ commits, ∀ trailer ∈ commit.trailers, trailer.IsLine) :
    Log.Commit.parseLog (String.ofList (log commits)) separators = .ok (commits.map Commit.value) ∧
      Log.Commit.parseLog (String.ofList (log commits ++ ['\x00'])) separators =
        .ok (commits.map Commit.value) := by
  have hnul : ∀ record ∈ commits.map Commit.record, '\x00' ∉ record := by
    intro record hr
    obtain ⟨commit, hc, rfl⟩ := List.mem_map.1 hr
    exact commit.nul_not_mem_record (h commit hc)
  have hlast : (commits.map Commit.record).getLast? ≠ some [] := fun hl => by
    obtain ⟨commit, -, hnil⟩ := List.mem_map.1 (List.mem_of_getLast? hl)
    exact commit.record_ne_nil hnil
  have hall : (commits.map Commit.record).mapM
      (fun record => Log.Commit.parse (String.ofList record) separators) =
        .ok (commits.map Commit.value) := by
    rw [mapM_eq_ok_iff, List.forall₂_map_left_iff, List.forall₂_map_right_iff, List.forall₂_same]
    exact fun commit hc => commit.parse_record (h commit hc)
  constructor
  · rw [Log.Commit.parseLog, String.toList_ofList, log, Text.records_joined hnul hlast, hall]
  · rw [Log.Commit.parseLog, String.toList_ofList, log, Text.records_joined_concat hnul hlast, hall]

def someone : Identity where
  name := "Jo"
  email := "jo@b.io"
  seconds := 86400
  behind := false
  hours := 1
  minutes := 0
  name_field := by decide +kernel
  name_feed := by decide +kernel
  name_pair := by decide +kernel
  email_field := by decide +kernel
  email_feed := by decide +kernel
  seconds_le := by decide +kernel
  hours_lt := by decide
  minutes_lt := by decide
  offset_lt := by decide

/-- A trailer whose separator is anything but its key. -/
def someTrailer (first : Char) (h : first ≠ 'K') : Trailer (String.singleton first) where
  first := first
  key := "K"
  value := "v"
  head_separators := by simp
  key_ne := by decide
  key_trim := by decide +kernel
  key_field := by decide +kernel
  key_line := by decide +kernel
  key_first := by simpa using h
  value_trim := by decide +kernel
  value_field := by decide +kernel
  value_line := by decide +kernel

/-- A root commit with a trailer and a tag. -/
def someCommit (first : Char) (h : first ≠ 'K') : Commit (String.singleton first) where
  sha := ⟨"01234Def", by decide +kernel⟩
  shortSha := ⟨"0123", by decide +kernel⟩
  summary := "Fix"
  summary_field := by decide +kernel
  body := ""
  body_field := by decide +kernel
  author := someone
  committer := someone
  parents := []
  trailers := [someTrailer first h]
  isEnded := true
  references := [.tag "v1" (by decide)
    (fun c hc => by
      obtain rfl | rfl : c = 'v' ∨ c = '1' := by simpa using hc
      all_goals decide)
    (by decide +kernel)]

theorem parseLog_log_colon :
    Log.Commit.parseLog (String.ofList (log [someCommit ':' (by decide)])) ":" =
      .ok [(someCommit ':' (by decide)).value] := by
  have hline : ∀ commit ∈ [someCommit ':' (by decide)], ∀ trailer ∈ commit.trailers,
      trailer.IsLine := by
    intro commit hc trailer ht
    obtain rfl := List.mem_singleton.1 hc
    obtain rfl := List.mem_singleton.1 ht
    exact ⟨by decide, by decide, by decide⟩
  exact (parseLog_log [someCommit ':' (by decide)] hline).1

/-- A separator at which lines, fields or records are cut does not bring the commit back. -/
theorem parseLog_log_ne :
    Log.Commit.parseLog (String.ofList (log [someCommit '\n' (by decide)])) "\n" ≠
        .ok [(someCommit '\n' (by decide)).value] ∧
      Log.Commit.parseLog (String.ofList (log [someCommit '\x1F' (by decide)])) "\x1F" ≠
        .ok [(someCommit '\x1F' (by decide)).value] ∧
      Log.Commit.parseLog (String.ofList (log [someCommit '\x00' (by decide)])) "\x00" ≠
        .ok [(someCommit '\x00' (by decide)).value] := by
  have hfeed : (Log.Commit.parseLog (String.ofList (log [someCommit '\n' (by decide)]))
      "\n").toOption ≠ some [(someCommit '\n' (by decide)).value] := by
    simp only [Log.Commit.parseLog, Log.Commit.parse, String.toList_ofList]
    decide +kernel
  have hunit : (Log.Commit.parseLog (String.ofList (log [someCommit '\x1F' (by decide)]))
      "\x1F").toOption ≠ some [(someCommit '\x1F' (by decide)).value] := by
    simp only [Log.Commit.parseLog, Log.Commit.parse, String.toList_ofList]
    decide +kernel
  have hnul : (Log.Commit.parseLog (String.ofList (log [someCommit '\x00' (by decide)]))
      "\x00").toOption ≠ some [(someCommit '\x00' (by decide)).value] := by
    simp only [Log.Commit.parseLog, Log.Commit.parse, String.toList_ofList]
    decide +kernel
  refine ⟨fun h => hfeed ?_, fun h => hunit ?_, fun h => hnul ?_⟩ <;> rw [h] <;> rfl

end GitReadout.Log.Written
