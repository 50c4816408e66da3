import GitReadout.Log.TrailerBlock
import GitReadout.Proofs.Log.Trailers
import GitReadout.Proofs.Text.Blank
import GitReadout.Proofs.Text.Joined
import Mathlib.Algebra.Order.BigOperators.Group.List
import Mathlib.Algebra.Order.Group.Nat
import Mathlib.Data.List.Basic

/-!
# Lines of trailers

A trailer is written on a line of its own: the key, a separator, a space and the value. A repository
may have several separators. The one that is listed first of those behind the key cuts the line,
wherever it stands, so what was written comes back only from a line whose own separator is that one.

* `lines_text`: the lines of a block are those that were written.
* `splitLine?_text`, `splitLine?_text_cases`: where a line is cut, and what it loses where that is
  not where it was written.
* `ofList_read_eq_iff`: no loss of one line makes up for that of another.
* `parse_block_eq_iff`: which blocks come back.
-/

set_option autoImplicit false

namespace GitReadout.Log.Written

/-- A trailer as it is written: there is a key, and key and value are trimmed and hold no line
end. -/
structure TrailerLine where
  key : String
  separator : Char
  value : String
  key_ne : key ≠ ""
  key_trim : Text.trim key.toList = key.toList
  key_line : '\n' ∉ key.toList ∧ '\r' ∉ key.toList
  value_trim : Text.trim value.toList = value.toList
  value_line : '\n' ∉ value.toList ∧ '\r' ∉ value.toList

namespace TrailerLine

/-- What stands behind the key. -/
def behind (line : TrailerLine) : List Char :=
  line.separator :: ' ' :: line.value.toList

def text (line : TrailerLine) : List Char :=
  line.key.toList ++ line.behind

/-- What should be read. -/
def pair (line : TrailerLine) : String × String :=
  (line.key, line.value)

/-- The block of lines, in which a line feed ends every line or stands between lines. -/
def block (lines : List TrailerLine) (isEnded : Bool) : List Char :=
  if isEnded then Text.ended '\n' (lines.map text) else ['\n'].intercalate (lines.map text)

/-- The line is written in a repository with these separators: with one of them, and with none in
the key. -/
structure IsOf (line : TrailerLine) (separators : String) : Prop where
  separator_mem : line.separator ∈ separators.toList
  key_free : ∀ c ∈ separators.toList, c ∉ line.key.toList

/-- The separator that is listed first of those behind the key. -/
def first? (line : TrailerLine) (separators : String) : Option Char :=
  separators.toList.find? (line.behind.contains ·)

/-- The separator that is listed first is the one of the line. It may also be a space if that of the
line is white space itself, since white space at the end of a key does not count. -/
def ComesFirst (line : TrailerLine) (separators : String) : Prop :=
  line.first? separators = some line.separator ∨
    line.first? separators = some ' ' ∧ Text.isBlank line.separator = true

instance (line : TrailerLine) (separators : String) : Decidable (line.ComesFirst separators) :=
  inferInstanceAs (Decidable (_ ∨ _))

/-! ## Lines of a block -/

variable {line : TrailerLine} {lines : List TrailerLine} {separators : String}

theorem feed_not_mem_text (h : line.separator ≠ '\n') : '\n' ∉ line.text := by
  simp [text, behind, line.key_line.1, line.value_line.1, h.symm]

theorem getLast?_text (line : TrailerLine) : line.text.getLast? ≠ some '\r' := by
  -- a carriage return may be the separator, but a space follows it
  have hlast : (' ' :: line.value.toList).getLast? ≠ some '\r' := by
    intro h
    rcases List.mem_cons.1 (List.mem_of_getLast? h) with h | h
    · exact absurd h (by decide)
    · exact line.value_line.2 h
  have hline : line.text.getLast? = (' ' :: line.value.toList).getLast? := by
    simp [text, behind, List.getLast?_append, List.getLast?_cons]
  rwa [hline]

theorem lines_text (isEnded : Bool) (h : ∀ line ∈ lines, line.separator ≠ '\n') :
    Text.lines (block lines isEnded) = lines.map text := by
  have hfeed : ∀ l ∈ lines.map text, '\n' ∉ l := by
    intro l hl
    obtain ⟨line, hline, rfl⟩ := List.mem_map.1 hl
    exact feed_not_mem_text (h line hline)
  have hreturn : ∀ l ∈ lines.map text, l.getLast? ≠ some '\r' := by
    intro l hl
    obtain ⟨line, -, rfl⟩ := List.mem_map.1 hl
    exact line.getLast?_text
  unfold block
  split
  · exact Text.lines_ended hfeed hreturn
  · refine Text.lines_joined hfeed hreturn fun hl => ?_
    obtain ⟨line, -, hnil⟩ := List.mem_map.1 (List.mem_of_getLast? hl)
    simp [text, behind] at hnil

/-! ## Where a line is cut -/

theorem key_toList_ne_nil (line : TrailerLine) : line.key.toList ≠ [] := by
  simpa using line.key_ne

theorem trim_key_append_ne_nil (line : TrailerLine) (s : List Char) :
    Text.trim (line.key.toList ++ s) ≠ [] := by
  obtain ⟨c, rest, hkey⟩ := List.exists_cons_of_ne_nil line.key_toList_ne_nil
  have hc : Text.isBlank c = false := by
    refine Text.isBlank_of_head?_trim (s := line.key.toList) ?_
    rw [line.key_trim, hkey]
    rfl
  exact Text.trim_ne_nil (c := c) (by simp [hkey]) hc

theorem exists_first? (h : line.IsOf separators) : ∃ c, line.first? separators = some c := by
  rw [← Option.isSome_iff_exists, first?, List.find?_isSome]
  exact ⟨line.separator, h.separator_mem, by simp [behind]⟩

/-- The separator that is listed first cuts the line where it first stands. -/
theorem splitLine?_text (h : line.IsOf separators) {c : Char} {before after : List Char}
    (hfirst : line.first? separators = some c) (hbehind : line.behind = before ++ c :: after)
    (hc : c ∉ before) :
    TrailerBlock.splitLine? separators.toList line.text =
      some (Text.trim (line.key.toList ++ before), Text.trim after) := by
  obtain ⟨-, earlier, later, hlist, hearlier⟩ := List.find?_eq_some_iff_append.1 hfirst
  have hmem : ∀ x ∈ earlier ++ c :: later, x ∉ line.key.toList := hlist ▸ h.key_free
  have hskipped : ∀ x ∈ earlier, TrailerBlock.cutAtSeparator? line.text x = none := by
    intro x hx
    refine TrailerBlock.cutAtSeparator?_of_not_mem ?_
    rw [text, List.mem_append, not_or]
    exact ⟨hmem x (by simp [hx]), by simpa using hearlier x hx⟩
  have hcut : TrailerBlock.cutAtSeparator? line.text c =
      some (Text.trim (line.key.toList ++ before), Text.trim after) := by
    rw [text, hbehind, ← List.append_assoc]
    refine TrailerBlock.cutAtSeparator?_append ?_ (line.trim_key_append_ne_nil before) after
    rw [List.mem_append, not_or]
    exact ⟨hmem c (by simp), hc⟩
  rw [TrailerBlock.splitLine?, hlist, List.findSome?_append, List.findSome?_eq_none_iff.2 hskipped,
    Option.none_or, List.findSome?_cons, hcut]

/-- A line is cut where it was written if and only if its separator comes first; cut elsewhere, it
loses the beginning of its value, or its key gains the separator. -/
theorem splitLine?_text_cases (h : line.IsOf separators) :
    ∃ key value, TrailerBlock.splitLine? separators.toList line.text = some (key, value) ∧
      ((line.ComesFirst separators ∧ key = line.key.toList ∧ value = line.value.toList) ∨
        (¬line.ComesFirst separators ∧ value.length < line.value.toList.length) ∨
        (¬line.ComesFirst separators ∧ key = line.key.toList ++ [line.separator] ∧
          value = line.value.toList)) := by
  obtain ⟨c, hfirst⟩ := exists_first? h
  obtain ⟨before, after, hbehind, hc⟩ : ∃ before after,
      line.behind = before ++ c :: after ∧ c ∉ before :=
    List.eq_append_cons_of_mem (by simpa using List.find?_some hfirst)
  refine ⟨_, _, splitLine?_text h hfirst hbehind hc, ?_⟩
  rw [ComesFirst, hfirst, Option.some.injEq, Option.some.injEq]
  -- the cut is at the separator, at the space behind it, or in the value
  match before, hbehind with
  | [], hbehind =>
    obtain ⟨rfl, rfl⟩ : line.separator = c ∧ ' ' :: line.value.toList = after := by
      simpa [behind] using hbehind
    simp [line.key_trim, Text.trim_space_cons, line.value_trim]
  | [x], hbehind =>
    obtain ⟨rfl, rfl, rfl⟩ : line.separator = x ∧ ' ' = c ∧ line.value.toList = after := by
      simpa [behind] using hbehind
    have hne : ' ' ≠ line.separator := by simpa using hc
    by_cases hblank : Text.isBlank line.separator = true
    · simp [hblank, Text.trim_append_of_isBlank hblank, line.key_trim, line.value_trim]
    · have hkept := Text.trim_append_of_not_isBlank line.key_toList_ne_nil line.key_trim
        (by simpa using hblank)
      simp [hblank, hne, hkept, line.value_trim]
  | x :: y :: front, hbehind =>
    obtain ⟨rfl, rfl, hvalue⟩ : line.separator = x ∧ ' ' = y ∧
        line.value.toList = front ++ c :: after := by
      simpa [behind] using hbehind
    have hshort : (Text.trim after).length < line.value.toList.length := by
      have hle := Text.length_trim_le after
      rw [hvalue, List.length_append, List.length_cons]
      omega
    simp only [List.mem_cons, not_or] at hc
    simp [hshort, hc.1, hc.2.1]

/-! ## Blocks -/

/-- The pair that is read from the line. -/
def read (line : TrailerLine) (separators : String) : String × String :=
  let cut := (TrailerBlock.splitLine? separators.toList line.text).getD ([], [])
  (String.ofList cut.1, String.ofList cut.2)

theorem read_cases (h : line.IsOf separators) :
    (line.ComesFirst separators ∧ line.read separators = line.pair) ∨
      (¬line.ComesFirst separators ∧
        ((line.read separators).2.toList.length < line.value.toList.length ∨
          (line.read separators).2 = line.value ∧
            line.key.toList.length < (line.read separators).1.toList.length)) := by
  obtain ⟨key, value, hsplit, ⟨hcomes, rfl, rfl⟩ | ⟨hcomes, hlt⟩ | ⟨hcomes, rfl, rfl⟩⟩ :=
    splitLine?_text_cases h
  · exact .inl ⟨hcomes, by simp [read, hsplit, pair]⟩
  · exact .inr ⟨hcomes, .inl (by simpa [read, hsplit] using hlt)⟩
  · exact .inr ⟨hcomes, .inr (by simp [read, hsplit])⟩

theorem parse_block_eq_read (isEnded : Bool) (hfeed : '\n' ∉ separators.toList)
    (h : ∀ line ∈ lines, line.IsOf separators) :
    TrailerBlock.parse (String.ofList (block lines isEnded)) separators =
      .ofList (lines.map (read · separators)) := by
  have hseparator : ∀ line ∈ lines, line.separator ≠ '\n' := fun line hl e =>
    hfeed (e ▸ (h line hl).separator_mem)
  have hpairs : TrailerBlock.pairs (String.ofList (block lines isEnded)) separators =
      lines.map (read · separators) := by
    rw [TrailerBlock.pairs, String.toList_ofList, lines_text isEnded hseparator,
      List.filterMap_map, List.filterMap_eq_map_iff_forall_eq_some]
    intro line hl
    obtain ⟨key, value, hsplit, -⟩ := splitLine?_text_cases (h line hl)
    simp [read, hsplit]
  rw [TrailerBlock.parse, hpairs]

/-- Lines that give the same trailers as were written weigh the same, if the spelling of a key does
not count. -/
theorem sum_weight_eq (weight : String → String → Nat)
    (hweight : ∀ a b value, Trailers.sameKey a b → weight a value = weight b value)
    (heq : Trailers.ofList (lines.map (read · separators)) = .ofList (lines.map pair)) :
    (lines.map fun line => weight (line.read separators).1 (line.read separators).2).sum =
      (lines.map fun line => weight line.key line.value).sum := by
  have htotal := congrArg (Trailers.total weight) heq
  rwa [Trailers.total_ofList hweight, Trailers.total_ofList hweight, List.map_map,
    List.map_map] at htotal

/-- Where a line is cut elsewhere, the values have become shorter in sum, or the keys longer. -/
theorem ofList_read_eq_iff (h : ∀ line ∈ lines, line.IsOf separators) :
    Trailers.ofList (lines.map (read · separators)) = .ofList (lines.map pair) ↔
      ∀ line ∈ lines, line.ComesFirst separators := by
  constructor
  · intro heq
    have hvalues : (lines.map fun line => (line.read separators).2.toList.length).sum =
        (lines.map fun line => line.value.toList.length).sum :=
      sum_weight_eq (fun _ value => value.toList.length) (fun _ _ _ _ => rfl) heq
    have hkeys : (lines.map fun line => (line.read separators).1.toList.length).sum =
        (lines.map fun line => line.key.toList.length).sum :=
      sum_weight_eq (fun key _ => key.toList.length)
        (fun _ _ _ => Trailers.length_eq_of_sameKey) heq
    by_cases hshort : ∃ line ∈ lines,
        (line.read separators).2.toList.length < line.value.toList.length
    · refine absurd hvalues (List.sum_lt_sum _ _ (fun line hl => ?_) hshort).ne
      obtain ⟨-, hread⟩ | ⟨-, hlt | ⟨hread, -⟩⟩ := read_cases (h line hl)
      · exact (congrArg (·.2.toList.length) hread).le
      · exact hlt.le
      · exact (congrArg (·.toList.length) hread).le
    · by_contra hnot
      push Not at hshort hnot
      have hlong : ∀ line ∈ lines, ¬line.ComesFirst separators →
          line.key.toList.length < (line.read separators).1.toList.length := by
        intro line hl hcomes
        obtain ⟨hfirst, -⟩ | ⟨-, hlt | ⟨-, hlt⟩⟩ := read_cases (h line hl)
        · exact absurd hfirst hcomes
        · exact absurd hlt (hshort line hl).not_gt
        · exact hlt
      obtain ⟨line, hl, hcomes⟩ := hnot
      refine absurd hkeys (List.sum_lt_sum _ _ (fun other ho => ?_)
        ⟨line, hl, hlong line hl hcomes⟩).ne'
      obtain ⟨-, hread⟩ | ⟨hother, -⟩ := read_cases (h other ho)
      · exact (congrArg (·.1.toList.length) hread).ge
      · exact (hlong other ho hother).le
  · intro hcomes
    refine congrArg _ (List.map_congr_left fun line hl => ?_)
    obtain ⟨-, hread⟩ | ⟨hnot, -⟩ := read_cases (h line hl)
    · exact hread
    · exact absurd (hcomes line hl) hnot

theorem IsOf.congr {others : String} (h : line.IsOf separators)
    (hsame : ∀ c, c ∈ others.toList ↔ c ∈ separators.toList) : line.IsOf others :=
  ⟨(hsame _).2 h.separator_mem, fun c hc => h.key_free c ((hsame c).1 hc)⟩

theorem comesFirst_of_alone (h : line.IsOf separators)
    (halone : ∀ c ∈ separators.toList, c ∈ line.behind → c = line.separator) :
    line.ComesFirst separators := by
  obtain ⟨c, hfirst⟩ := exists_first? h
  have hbehind : c ∈ line.behind := by simpa using List.find?_some hfirst
  exact .inl (halone c (List.mem_of_find?_eq_some hfirst) hbehind ▸ hfirst)

/-- **Which separators of a repository bring its trailers back.** Lines are written with any of the
separators, of which keys hold none and values any. The trailers of their block are those that were
written if and only if in every line the separator comes first of those behind the key, in the order
in which the repository lists them. So another order of the same separators gives the same trailers
if and only if it too lets every separator come first, and every order does if no line holds a
second separator. -/
theorem parse_block_eq_iff (isEnded : Bool) (hfeed : '\n' ∉ separators.toList)
    (h : ∀ line ∈ lines, line.IsOf separators) :
    (TrailerBlock.parse (String.ofList (block lines isEnded)) separators =
        .ofList (lines.map pair) ↔ ∀ line ∈ lines, line.ComesFirst separators) ∧
      ∀ others : String, (∀ c, c ∈ others.toList ↔ c ∈ separators.toList) →
        ((∀ line ∈ lines, line.ComesFirst separators) →
          (TrailerBlock.parse (String.ofList (block lines isEnded)) others =
              TrailerBlock.parse (String.ofList (block lines isEnded)) separators ↔
            ∀ line ∈ lines, line.ComesFirst others)) ∧
        ((∀ line ∈ lines, ∀ c ∈ separators.toList, c ∈ line.behind → c = line.separator) →
          TrailerBlock.parse (String.ofList (block lines isEnded)) others =
            .ofList (lines.map pair)) := by
  refine ⟨by rw [parse_block_eq_read isEnded hfeed h, ofList_read_eq_iff h], fun others hsame => ?_⟩
  have hothers : ∀ line ∈ lines, line.IsOf others := fun line hl => (h line hl).congr hsame
  have hfeed' : '\n' ∉ others.toList := fun hc => hfeed ((hsame _).1 hc)
  rw [parse_block_eq_read isEnded hfeed' hothers]
  constructor
  · intro hcomes
    rw [parse_block_eq_read isEnded hfeed h, (ofList_read_eq_iff h).2 hcomes,
      ofList_read_eq_iff hothers]
  · intro halone
    exact (ofList_read_eq_iff hothers).2 fun line hl =>
      comesFirst_of_alone (hothers line hl) fun c hc => halone line hl c ((hsame c).1 hc)

/-- A trailer that names an address. -/
def address : TrailerLine where
  key := "See"
  separator := ':'
  value := "http://b.io/#1"
  key_ne := by decide
  key_trim := by decide +kernel
  key_line := by decide +kernel
  value_trim := by decide +kernel
  value_line := by decide +kernel

/-- A trailer that names an issue and a time. -/
def issue : TrailerLine where
  key := "Fixes"
  separator := '#'
  value := "12 at 8:30"
  key_ne := by decide
  key_trim := by decide +kernel
  key_line := by decide +kernel
  value_trim := by decide +kernel
  value_line := by decide +kernel

/-- The value holds both separators, of which the one of the line is listed first. -/
theorem parse_block_address :
    TrailerBlock.parse (String.ofList (block [address] true)) ":#" = .ofList [address.pair] := by
  have hof : ∀ line ∈ [address], line.IsOf ":#" := by
    intro line hl
    obtain rfl := List.mem_singleton.1 hl
    exact ⟨by simp [address], by simp [address]⟩
  exact (parse_block_eq_iff true (by decide +kernel) hof).1.2 (by decide +kernel)

/-- The value holds the separator that is listed first, which is not the one of the line; in the
other order the trailer comes back. -/
theorem parse_block_issue_ne :
    issue.IsOf ":#" ∧
      TrailerBlock.parse (String.ofList (block [issue] true)) ":#" ≠ .ofList [issue.pair] ∧
      TrailerBlock.parse (String.ofList (block [issue] true)) "#:" = .ofList [issue.pair] := by
  refine ⟨⟨by simp [issue], by simp [issue]⟩, ?_, ?_⟩
  · simp only [TrailerBlock.parse, TrailerBlock.pairs, String.toList_ofList]
    decide +kernel
  · simp only [TrailerBlock.parse, TrailerBlock.pairs, String.toList_ofList]
    decide +kernel

end TrailerLine

end GitReadout.Log.Written
