import GitReadout.Log.Author
import GitReadout.Proofs.Text.Blank
import GitReadout.Text.Split

/-!
# Names and emails

A value is read as a person if it can be split into a name, white space, an email between `<` and
`>` and white space. A value that is trimmed and stands on one line leaves no choice but that of the
`<`, and the first one is taken, since a shorter name is tried before a longer one.

* `emailHere?_eq_some_iff`, `scan?_of_not_mem`, `scan?_append`: what the scan for the `<` finds.
* `parse?_eq_some_iff`: what is read of a value, from its first `<`.
* `Split.Fits.name_cases`, `Split.Fits.eq_of_length_le`: the other splits have longer names.
* `parse?_eq_some_iff_isChosen`: what is read of a value, from the split that is found first.
-/

set_option autoImplicit false

namespace GitReadout.Log.Author

/-! ## Splits -/

/-- The parts of a person as they are written. -/
structure Split where
  name : List Char
  gap : List Char
  email : List Char
  trail : List Char
deriving DecidableEq

namespace Split

/-- The text that is split. -/
def text (split : Split) : List Char :=
  split.name ++ (split.gap ++ '<' :: (split.email ++ '>' :: split.trail))

/-- The person whom the parts name. -/
def author (split : Split) : Author :=
  ⟨String.ofList split.name, String.ofList split.email⟩

/-- A split of a text: the name and the email are any text within a line, and what stands before
and after the angle brackets is white space. -/
structure Fits (split : Split) (text : List Char) : Prop where
  text_eq : text = split.text
  name_feed : '\n' ∉ split.name
  email_feed : '\n' ∉ split.email
  gap_blank : ∀ c ∈ split.gap, Text.isBlank c = true
  trail_blank : ∀ c ∈ split.trail, Text.isBlank c = true

/-- A split is found first when no other has a shorter name, or as short a name and more white
space behind it, or is the same so far and has a shorter email. -/
def IsChosen (split : Split) (text : List Char) : Prop :=
  split.Fits text ∧ ∀ other : Split, other.Fits text →
    split.name.length < other.name.length ∨
      split.name.length = other.name.length ∧
        (other.gap.length < split.gap.length ∨
          other.gap.length = split.gap.length ∧ split.email.length ≤ other.email.length)

end Split

/-! ## The scan -/

theorem isBlank_open : Text.isBlank '<' = false := by decide

theorem open_not_mem_of_isBlank {gap : List Char} (h : ∀ c ∈ gap, Text.isBlank c = true) :
    '<' ∉ gap := by
  intro hopen
  have hblank := h '<' hopen
  rw [isBlank_open] at hblank
  cases hblank

theorem emailHere?_eq_some_iff {s email : List Char} :
    emailHere? s = some email ↔ ∃ gap, s = gap ++ '<' :: email ∧
      (∀ c ∈ gap, Text.isBlank c = true) ∧ '\n' ∉ email := by
  unfold emailHere?
  constructor
  · intro h
    split at h
    · rename_i rest hrest
      by_cases hfeed : '\n' ∈ rest
      · rw [if_pos hfeed] at h
        cases h
      · rw [if_neg hfeed] at h
        cases h
        refine ⟨s.takeWhile Text.isBlank, ?_, fun c hc => ?_, hfeed⟩
        · rw [← hrest, Text.trimStart, List.takeWhile_append_dropWhile]
        · exact List.all_eq_true.1 List.all_takeWhile c hc
    · cases h
  · intro h
    obtain ⟨gap, rfl, hgap, hfeed⟩ := h
    have hstart : Text.trimStart (gap ++ '<' :: email) = '<' :: email := by
      rw [Text.trimStart, List.dropWhile_append_of_pos hgap]
      exact Text.trimStart_of_not_isBlank isBlank_open email
    simp only [hstart, if_neg hfeed]

theorem scan?_of_not_mem {s : List Char} (h : '<' ∉ s) (seen : List Char) :
    scan? seen s = none := by
  induction s generalizing seen with
  | nil => rfl
  | cons c rest ih =>
    have hnone : emailHere? (c :: rest) = none := by
      refine Option.eq_none_iff_forall_ne_some.2 fun email hemail => ?_
      obtain ⟨gap, hs, -⟩ := emailHere?_eq_some_iff.1 hemail
      exact h (by simp [hs])
    simp only [scan?, hnone]
    split
    · rfl
    · exact ih (fun hrest => h (List.mem_cons_of_mem _ hrest)) (c :: seen)

/-- Before the first `<`, the scan stops where nothing but white space is left. -/
theorem scan?_append {name email : List Char} (hopen : '<' ∉ name) (hfeed : '\n' ∉ name)
    (hemail : '\n' ∉ email) (seen : List Char) :
    scan? seen (name ++ '<' :: email) = some (seen.reverse ++ Text.trimEnd name, email) := by
  induction name generalizing seen with
  | nil =>
    have hhere : emailHere? ('<' :: email) = some email :=
      emailHere?_eq_some_iff.2 ⟨[], rfl, by simp, hemail⟩
    simp [scan?, hhere, Text.trimEnd]
  | cons c rest ih =>
    have ih := ih (fun h => hopen (List.mem_cons_of_mem _ h))
      (fun h => hfeed (List.mem_cons_of_mem _ h)) (c :: seen)
    by_cases hblank : ∀ x ∈ c :: rest, Text.isBlank x = true
    · have hhere : emailHere? (c :: (rest ++ '<' :: email)) = some email :=
        emailHere?_eq_some_iff.2 ⟨c :: rest, rfl, hblank, hemail⟩
      rw [List.cons_append, Text.trimEnd_eq_nil_iff.2 hblank, List.append_nil]
      simp only [scan?, hhere]
    · have hnone : emailHere? (c :: (rest ++ '<' :: email)) = none := by
        refine Option.eq_none_iff_forall_ne_some.2 fun other hother => hblank ?_
        obtain ⟨gap, hs, hgap, -⟩ := emailHere?_eq_some_iff.1 hother
        have hcut := Text.cut?_append hopen email
        rw [List.cons_append, hs, Text.cut?_append (open_not_mem_of_isBlank hgap)] at hcut
        cases hcut
        exact hgap
      have hc : c ≠ '\n' := fun h => hfeed (h ▸ List.mem_cons_self)
      have htrim : Text.trimEnd (c :: rest) = c :: Text.trimEnd rest := by
        rw [← List.singleton_append, Text.trimEnd_append]
        split
        · rename_i hrest
          rw [hrest]
          refine Text.trimEnd_eq_self fun x hx => ?_
          obtain rfl : c = x := by simpa using hx
          simp only [List.forall_mem_cons, not_and] at hblank
          rw [← Bool.not_eq_true]
          exact fun hc => hblank hc (Text.trimEnd_eq_nil_iff.1 hrest)
        · rfl
      rw [List.cons_append, htrim]
      simp only [scan?, hnone, if_neg hc, ih]
      simp

/-! ## What is read -/

section
variable {value : List Char} (htrim : Text.trim value = value) (hfeed : '\n' ∉ value)
include htrim hfeed

/-- The name ends before the first `<` and the email at the end of the value. -/
theorem parse?_eq_some_iff {author : Author} :
    parse? (String.ofList value) = some author ↔
      ∃ name email, value = name ++ '<' :: (email ++ ['>']) ∧ '<' ∉ name ∧
        author = ⟨String.ofList (Text.trimEnd name), String.ofList email⟩ := by
  unfold parse?
  rw [String.toList_ofList, htrim]
  constructor
  · intro h
    by_cases hlast : value.getLast? = some '>'
    · obtain ⟨front, rfl⟩ := List.getLast?_eq_some_iff.1 hlast
      simp only [hlast, if_true, List.dropLast_concat] at h
      by_cases hopen : '<' ∈ front
      · obtain ⟨name, email, rfl, hname⟩ := List.eq_append_cons_of_mem hopen
        simp only [List.mem_append, List.mem_cons, not_or] at hfeed
        rw [scan?_append hname hfeed.1.1 hfeed.1.2.2] at h
        cases h
        exact ⟨name, email, by simp, hname, rfl⟩
      · rw [scan?_of_not_mem hopen] at h
        cases h
    · simp only [if_neg hlast] at h
      cases h
  · rintro ⟨name, email, rfl, hname, rfl⟩
    have hvalue : name ++ '<' :: (email ++ ['>']) = (name ++ '<' :: email) ++ ['>'] := by simp
    simp only [List.mem_append, List.mem_cons, not_or] at hfeed
    simp only [hvalue, List.getLast?_concat, if_true, List.dropLast_concat]
    rw [scan?_append hname hfeed.1 hfeed.2.2.1]
    rfl

end

/-! ## The split that is found first -/

namespace Split

/-- White space behind the `>` would have been trimmed. -/
theorem Fits.trail_eq_nil {split : Split} {value : List Char} (h : split.Fits value)
    (htrim : Text.trim value = value) : split.trail = [] := by
  cases hlast : split.trail.getLast? with
  | none => exact List.getLast?_eq_none_iff.1 hlast
  | some c =>
    have hvalue : (Text.trim value).getLast? = some c := by
      rw [htrim, h.text_eq, text]
      simp [List.getLast?_append, List.getLast?_cons, hlast]
    have hblank := h.trail_blank c (List.mem_of_getLast? hlast)
    rw [Text.isBlank_of_getLast?_trim hvalue] at hblank
    cases hblank

section
variable {name email rest : List Char} {other : Split} (hopen : '<' ∉ name)
include hopen

/-- The `<` of a split is the first one or stands behind it. -/
theorem Fits.name_cases (h : other.Fits (name ++ '<' :: rest)) :
    name.length < other.name.length ∨
      other.name ++ other.gap = name ∧ other.email ++ '>' :: other.trail = rest := by
  have hcut := Text.cut?_append hopen rest
  rw [h.text_eq, text] at hcut
  by_cases hother : '<' ∈ other.name
  · obtain ⟨before, after, hname, hbefore⟩ := List.eq_append_cons_of_mem hother
    rw [hname, List.append_assoc, List.cons_append, Text.cut?_append hbefore] at hcut
    cases hcut
    refine .inl ?_
    rw [hname, List.length_append, List.length_cons]
    omega
  · have hboth : '<' ∉ other.name ++ other.gap := by
      rw [List.mem_append, not_or]
      exact ⟨hother, open_not_mem_of_isBlank h.gap_blank⟩
    rw [← List.append_assoc, Text.cut?_append hboth] at hcut
    cases hcut
    exact .inr ⟨rfl, rfl⟩

/-- No other split has as short a name. -/
theorem Fits.eq_of_length_le (h : other.Fits (name ++ '<' :: (email ++ ['>'])))
    (htrim : Text.trim (name ++ '<' :: (email ++ ['>'])) = name ++ '<' :: (email ++ ['>']))
    (hle : other.name.length ≤ (Text.trimEnd name).length) :
    other.name = Text.trimEnd name ∧ other.name ++ other.gap = name ∧ other.email = email := by
  rcases h.name_cases hopen with hlt | ⟨hname, hrest⟩
  · have hprefix := (Text.trimEnd_isPrefix name).length_le
    omega
  · have htrimEnd : Text.trimEnd name = Text.trimEnd other.name := by
      rw [← hname, Text.trimEnd_append, if_pos (Text.trimEnd_eq_nil_iff.2 h.gap_blank)]
    rw [htrimEnd] at hle ⊢
    rw [h.trail_eq_nil htrim] at hrest
    refine ⟨?_, hname, List.append_cancel_right hrest⟩
    exact ((Text.trimEnd_isPrefix other.name).eq_of_length_le hle).symm

/-- The split at the first `<`, with all white space before it in the gap. -/
theorem exists_isChosen
    (htrim : Text.trim (name ++ '<' :: (email ++ ['>'])) = name ++ '<' :: (email ++ ['>']))
    (hfeed : '\n' ∉ name ++ '<' :: (email ++ ['>'])) :
    ∃ split : Split, split.IsChosen (name ++ '<' :: (email ++ ['>'])) ∧
      split.name = Text.trimEnd name ∧ split.email = email := by
  obtain ⟨gap, hname, hgap⟩ := Text.exists_eq_trimEnd_append name
  simp only [List.mem_append, List.mem_cons, not_or] at hfeed
  have hnameFeed : '\n' ∉ Text.trimEnd name := fun h =>
    hfeed.1 ((Text.trimEnd_isPrefix name).subset h)
  refine ⟨⟨Text.trimEnd name, gap, email, []⟩,
    ⟨⟨?_, hnameFeed, hfeed.2.2.1, hgap, by simp⟩, fun other hother => ?_⟩, rfl, rfl⟩
  · rw [text, ← List.append_assoc, ← hname]
  · rcases Nat.lt_or_ge (Text.trimEnd name).length other.name.length with hlt | hge
    · exact .inl hlt
    · obtain ⟨hotherName, hotherGap, hotherEmail⟩ := hother.eq_of_length_le hopen htrim hge
      rw [hotherName] at hotherGap ⊢
      have hsame : other.gap = gap := List.append_cancel_left (hotherGap.trans hname)
      exact .inr ⟨rfl, .inr ⟨congrArg List.length hsame, hotherEmail ▸ Nat.le_refl _⟩⟩

end

end Split

/-- A value that is trimmed and stands on one line is read as the split that a matcher finds first
that tries short names before long ones, then much white space behind the name before little, and
then short emails before long ones; it is not read if it has no split. -/
theorem parse?_eq_some_iff_isChosen {value : List Char} (htrim : Text.trim value = value)
    (hfeed : '\n' ∉ value) {author : Author} :
    parse? (String.ofList value) = some author ↔
      ∃ split : Split, split.IsChosen value ∧ split.author = author := by
  rw [parse?_eq_some_iff htrim hfeed]
  constructor
  · rintro ⟨name, email, rfl, hopen, rfl⟩
    obtain ⟨split, hchosen, hname, hemail⟩ := Split.exists_isChosen hopen htrim hfeed
    exact ⟨split, hchosen, by rw [Split.author, hname, hemail]⟩
  · rintro ⟨split, ⟨hfits, hfirst⟩, rfl⟩
    have hvalue : value = (split.name ++ split.gap ++ '<' :: split.email) ++ ['>'] := by
      rw [hfits.text_eq, Split.text, hfits.trail_eq_nil htrim]
      simp
    have hmem : '<' ∈ split.name ++ split.gap ++ '<' :: split.email := by simp
    obtain ⟨name, email, hfront, hopen⟩ := List.eq_append_cons_of_mem hmem
    obtain rfl : value = name ++ '<' :: (email ++ ['>']) := by
      rw [hvalue, hfront]
      simp
    obtain ⟨chosen, hchosen, hname, -⟩ := Split.exists_isChosen hopen htrim hfeed
    have hle : split.name.length ≤ (Text.trimEnd name).length := by
      have hshort := hfirst chosen hchosen.1
      rw [hname] at hshort
      omega
    obtain ⟨hsplitName, -, hsplitEmail⟩ := hfits.eq_of_length_le hopen htrim hle
    exact ⟨name, email, rfl, hopen, by rw [Split.author, hsplitName, hsplitEmail]⟩

/-- An email may hold angle brackets, a name the closing one only. -/
example : parse? "A > B  <a<b>@c>" = some ⟨"A > B", "a<b>@c"⟩ := by decide

end GitReadout.Log.Author
