import GitReadout.Log.Commit
import GitReadout.Proofs.Log.Author
import GitReadout.Proofs.Log.Grouping
import GitReadout.Proofs.Text.Joined

/-!
# Co-authors

The people that a commit credits are read from the lines of its trailers: from those whose key is
`Co-authored-by`, in whatever case it is written, and whose value names a person. The values stand
under one key, whichever spelling came first, so that they keep the order of the lines.

* `cutAtSeparator?_eq_some_iff`, `splitLine?_eq_some`: what is cut out of a line.
* `trim_value`, `not_mem_value`: every value is trimmed and stands on one line.
* `Commit.coAuthors_of_trailers`: the people, line by line.
-/

set_option autoImplicit false

namespace GitReadout.Log

/-! ## Values of lines -/

namespace TrailerBlock

/-- A separator cuts where it first stands, if there is more than white space before it. -/
theorem cutAtSeparator?_eq_some_iff {separator : Char} {line key value : List Char} :
    cutAtSeparator? line separator = some (key, value) ↔
      ∃ before after, line = before ++ separator :: after ∧ separator ∉ before ∧
        Text.trim before ≠ [] ∧ key = Text.trim before ∧ value = Text.trim after := by
  constructor
  · intro h
    by_cases hmem : separator ∈ line
    · obtain ⟨before, after, rfl, hbefore⟩ := List.eq_append_cons_of_mem hmem
      rw [cutAtSeparator?_first hbefore] at h
      split at h
      · cases h
      · rename_i hblank
        cases h
        exact ⟨before, after, rfl, hbefore, hblank, rfl, rfl⟩
    · rw [cutAtSeparator?_of_not_mem hmem] at h
      cases h
  · rintro ⟨before, after, rfl, hbefore, hblank, rfl, rfl⟩
    exact cutAtSeparator?_append hbefore hblank after

section
variable {separators line key value : List Char}

theorem splitLine?_eq_some (h : splitLine? separators line = some (key, value)) :
    ∃ separator ∈ separators, ∃ before after, line = before ++ separator :: after ∧
      key = Text.trim before ∧ value = Text.trim after := by
  obtain ⟨separator, hmem, hcut⟩ := List.exists_of_findSome?_eq_some h
  obtain ⟨before, after, hline, -, -, hkey, hvalue⟩ := cutAtSeparator?_eq_some_iff.1 hcut
  exact ⟨separator, hmem, before, after, hline, hkey, hvalue⟩

theorem trim_value (h : splitLine? separators line = some (key, value)) :
    Text.trim value = value := by
  obtain ⟨-, -, -, after, -, -, rfl⟩ := splitLine?_eq_some h
  exact Text.trim_trim after

theorem not_mem_value (h : splitLine? separators line = some (key, value)) (hfeed : '\n' ∉ line) :
    '\n' ∉ value := by
  obtain ⟨separator, -, before, after, rfl, -, rfl⟩ := splitLine?_eq_some h
  intro hmem
  have hafter : '\n' ∈ after := Text.trim_subset after hmem
  exact hfeed (by simp [hafter])

end

end TrailerBlock

/-! ## People -/

namespace Commit

/-- The person whom a line of trailers credits. -/
def credited? (separators : String) (line : List Char) : Option Author :=
  (TrailerBlock.splitLine? separators.toList line).bind fun (key, value) =>
    if Trailers.sameKey (String.ofList key) "Co-authored-by" then
      Author.parse? (String.ofList value)
    else none

section
variable {separators : String} {line : List Char} {author : Author}

theorem credited?_eq_some_iff :
    credited? separators line = some author ↔
      ∃ key value, TrailerBlock.splitLine? separators.toList line = some (key, value) ∧
        List.Forall₂ Trailers.SameLetter key "Co-authored-by".toList ∧
        Author.parse? (String.ofList value) = some author := by
  simp only [credited?, Option.bind_eq_some_iff, Option.ite_none_right_eq_some,
    Trailers.sameKey_iff_forall₂, String.toList_ofList, Prod.exists]

theorem coAuthors_eq_filterMap {commit : Commit} {block : String}
    (h : commit.trailers = TrailerBlock.parse block separators) :
    commit.coAuthors = (Text.lines block.toList).filterMap (credited? separators) := by
  rw [coAuthors, trailer?, h, TrailerBlock.parse, Trailers.getD_get?_ofList,
    Trailers.valuesUnder, List.filterMap_map, List.filterMap_filter, TrailerBlock.pairs,
    List.filterMap_filterMap]
  refine congrArg (fun f => List.filterMap f _) (funext fun line => ?_)
  rw [credited?, Option.bind_map]
  rfl

/-- **Co-authors.** A commit credits in the order of the lines of its trailers, for each line with
the key `Co-authored-by` in any case whose value holds a `<` and ends with `>`, the person named
before the first `<`, without the white space at the end of the name, with all that stands between
that `<` and the last `>` as the email. This is the split of the value that is found first. -/
theorem coAuthors_of_trailers {commit : Commit} {block : String}
    (h : commit.trailers = TrailerBlock.parse block separators) :
    commit.coAuthors = (Text.lines block.toList).filterMap (credited? separators) ∧
      ∀ line ∈ Text.lines block.toList, ∀ author,
        (credited? separators line = some author ↔
          ∃ key value, TrailerBlock.splitLine? separators.toList line = some (key, value) ∧
            List.Forall₂ Trailers.SameLetter key "Co-authored-by".toList ∧
            ∃ name email, value = name ++ '<' :: (email ++ ['>']) ∧ '<' ∉ name ∧
              author = ⟨String.ofList (Text.trimEnd name), String.ofList email⟩) ∧
        (credited? separators line = some author ↔
          ∃ key value, TrailerBlock.splitLine? separators.toList line = some (key, value) ∧
            List.Forall₂ Trailers.SameLetter key "Co-authored-by".toList ∧
            ∃ split : Author.Split, split.IsChosen value ∧ split.author = author) := by
  refine ⟨coAuthors_eq_filterMap h, fun line hline author => ?_⟩
  have hfeed : '\n' ∉ line := Text.not_mem_of_mem_lines hline
  rw [credited?_eq_some_iff]
  constructor
  · refine exists_congr fun key => exists_congr fun value => and_congr_right fun hsplit => ?_
    rw [Author.parse?_eq_some_iff (TrailerBlock.trim_value hsplit)
      (TrailerBlock.not_mem_value hsplit hfeed)]
  · refine exists_congr fun key => exists_congr fun value => and_congr_right fun hsplit => ?_
    rw [Author.parse?_eq_some_iff_isChosen (TrailerBlock.trim_value hsplit)
      (TrailerBlock.not_mem_value hsplit hfeed)]

end

/-- A commit that three people have a part in. -/
def shared : Commit where
  sha := ⟨"0123456789abcdef0123456789abcdef01234567"⟩
  shortSha := ⟨"0123456"⟩
  summary := "Add a door"
  body := ""
  author := ⟨"Cy", "cy@x.org", { seconds := 1700000000, offset := 3600 }, 60⟩
  committer := ⟨"Cy", "cy@x.org", { seconds := 1700000000, offset := 3600 }, 60⟩
  parents := []
  trailers := .ofList [("co-authored-BY", "Ann  <ann@x.org>"), ("See", "Ed <ed@x.org>"),
    ("Co-authored-by", "nobody"), ("Co-Authored-By", "Bob <b> <bob@x.org>")]
  tags := []

/-- The lines in which they are written. -/
def sharedBlock : String :=
  "co-authored-BY: Ann  <ann@x.org>\nSee: Ed <ed@x.org>\r\nCo-authored-by= nobody\n\n" ++
    "Co-Authored-By : Bob <b> <bob@x.org>"

/-- Two spellings of the key, a value that names nobody and one with two `<`. -/
theorem coAuthors_shared :
    shared.coAuthors = [⟨"Ann", "ann@x.org"⟩, ⟨"Bob", "b> <bob@x.org"⟩] := by
  have htrailers : shared.trailers = TrailerBlock.parse sharedBlock ":=" := by decide +kernel
  rw [(coAuthors_of_trailers htrailers).1]
  decide +kernel

end Commit

end GitReadout.Log
