import GitReadout.Proofs.Status.Shown

/-!
# Renames and copies that are shown

A record of a rename or copy says twice what it is: its score by a letter, its code by the letters
of both sides. The kind of its entry comes from the score alone, the status that is shown from the
code alone, so the two agree only where the record does.

* `Written.Score.Agrees`: a score and a code that say the same.
* `ofLetters_eq_status_iff`: the code shows what the score says if and only if they agree.
* `oldPath?_of_status`: no status makes a source up or takes one from elsewhere.
* `exists_keepsSource`: every entry that is yielded, from the record it was read from.
-/

set_option autoImplicit false

namespace GitReadout.Status

open Written

/-! ## Scores and codes -/

/-- What a score says that happened to the path. -/
def Written.Score.status (score : Score) (source : String) : FileStatus :=
  if score.isCopy then .copied source else .renamed source

/-- The code says what the score says: no side is unmerged, and a rename has an `R`, a copy a `C`
and no `R`. -/
def Written.Score.Agrees (score : Score) (tracked : Tracked) : Prop :=
  'U' ∉ tracked.code ∧
    if score.isCopy then 'C' ∈ tracked.code ∧ 'R' ∉ tracked.code else 'R' ∈ tracked.code

/-- What is shown of a record: a rename or copy is shown as such, with its source, if and only if
its code agrees with its score, and otherwise at its path all the same, with its own source or none;
nothing else is shown with a source. -/
def Written.KeepsSource : Written → Option FileChange → Prop
  | moved tracked _ score path source, shown =>
    ((∃ change, shown = some change ∧ change.path = path.1 ∧
      change.status = score.status source.1) ↔ score.Agrees tracked) ∧
      ∀ change, shown = some change → change.path = path.1 ∧
        ∀ old, change.status.oldPath? = some old → old = source.1
  | _, shown => ∀ change, shown = some change → change.status.oldPath? = none

theorem ofCode?_eq_renamed_iff {c : Char} : SideState.ofCode? c = some .renamed ↔ c = 'R' := by
  unfold SideState.ofCode?
  split <;> simp_all

theorem ofCode?_eq_copied_iff {c : Char} : SideState.ofCode? c = some .copied ↔ c = 'C' := by
  unfold SideState.ofCode?
  split <;> simp_all

theorem isConflict_iff {x y : Char} :
    Code.isConflict x y ↔ 'U' ∈ [x, y] ∨ [x, y] = ['A', 'A'] ∨ [x, y] = ['D', 'D'] := by
  simp [Code.isConflict, or_assoc, @eq_comm Char 'U']

theorem oldPath?_ofState (state : SideState) : (FileStatus.ofState state).oldPath? = none := by
  cases state <;> rfl

theorem exists_states (tracked : Tracked) : ∃ index worktree,
    SideState.ofCode? tracked.index.1 = some index ∧
      SideState.ofCode? tracked.worktree.1 = some worktree ∧
      ((index = .renamed ∨ worktree = .renamed) ↔ 'R' ∈ tracked.code) ∧
      ((index = .copied ∨ worktree = .copied) ↔ 'C' ∈ tracked.code) := by
  obtain ⟨index, hindex, -⟩ := exists_state_of_mem tracked.index.2
  obtain ⟨worktree, hworktree, -⟩ := exists_state_of_mem tracked.worktree.2
  refine ⟨index, worktree, hindex, hworktree, ?_, ?_⟩
  · have hx := ofCode?_eq_renamed_iff (c := tracked.index.1)
    have hy := ofCode?_eq_renamed_iff (c := tracked.worktree.1)
    rw [hindex, Option.some.injEq] at hx
    rw [hworktree, Option.some.injEq] at hy
    simp [Tracked.code, hx, hy, @eq_comm Char 'R']
  · have hx := ofCode?_eq_copied_iff (c := tracked.index.1)
    have hy := ofCode?_eq_copied_iff (c := tracked.worktree.1)
    rw [hindex, Option.some.injEq] at hx
    rw [hworktree, Option.some.injEq] at hy
    simp [Tracked.code, hx, hy, @eq_comm Char 'C']

/-- The code shows what the score says if and only if they agree. -/
theorem ofLetters_eq_status_iff (tracked : Tracked) (score : Score) (source : String) :
    FileStatus.ofLetters tracked.index.1 tracked.worktree.1 (some source) = score.status source ↔
      score.Agrees tracked := by
  by_cases hconflict : Code.isConflict tracked.index.1 tracked.worktree.1
  · have hcode : ¬score.Agrees tracked := by
      rintro ⟨hunmerged, hletter⟩
      rcases isConflict_iff.1 hconflict with h | h | h
      · exact hunmerged h
      · rw [Tracked.code, h] at hletter
        revert hletter
        split <;> decide
      · rw [Tracked.code, h] at hletter
        revert hletter
        split <;> decide
    rw [FileStatus.ofLetters_of_isConflict hconflict]
    simp only [hcode, iff_false, Score.status]
    split <;> simp
  · obtain ⟨index, worktree, hindex, hworktree, hR, hC⟩ := exists_states tracked
    have hmerged : 'U' ∉ tracked.code := fun h => hconflict (isConflict_iff.2 (.inl h))
    have hquestion : ¬(tracked.index.1 = '?' ∧ tracked.worktree.1 = '?') := fun h =>
      absurd (h.1 ▸ tracked.index.2) (by decide)
    have hstates : FileStatus.ofLetters tracked.index.1 tracked.worktree.1 (some source) =
        FileStatus.ofStates index worktree (some source) := by
      simp [FileStatus.ofLetters, hquestion, hconflict, hindex, hworktree]
    have hplain : (FileStatus.ofState (if worktree = .unmodified then index else worktree)) ≠
        score.status source := fun h => by
      have := congrArg FileStatus.oldPath? h
      rw [oldPath?_ofState, Score.status] at this
      split at this <;> cases this
    rw [hstates, FileStatus.ofStates, Option.bind_some, FileStatus.ofSource?, Score.Agrees]
    simp only [hR, hC, hmerged, not_false_iff, true_and]
    by_cases hr : 'R' ∈ tracked.code
    · cases hcopy : score.isCopy <;> simp [hr, hcopy, Score.status]
    · by_cases hc : 'C' ∈ tracked.code
      · cases hcopy : score.isCopy <;> simp [hr, hc, hcopy, Score.status]
      · cases hcopy : score.isCopy <;> simpa [hr, hc, hcopy] using hplain

theorem oldPath?_ofStates {index worktree : SideState} {oldPath : Option String} {old : String}
    (h : (FileStatus.ofStates index worktree oldPath).oldPath? = some old) :
    oldPath = some old := by
  unfold FileStatus.ofStates at h
  cases oldPath with
  | none => simp [oldPath?_ofState] at h
  | some source =>
    rw [Option.bind_some, FileStatus.ofSource?] at h
    split at h
    · simpa [FileStatus.oldPath?] using h
    · split at h
      · simpa [FileStatus.oldPath?] using h
      · simp [oldPath?_ofState] at h

theorem oldPath?_ofStatusCode {code : String} {oldPath : Option String} {old : String}
    (h : (FileStatus.ofStatusCode code oldPath).oldPath? = some old) : oldPath = some old := by
  unfold FileStatus.ofStatusCode at h
  split at h
  · unfold FileStatus.ofLetters at h
    split at h
    · simp [FileStatus.oldPath?] at h
    · split at h
      · simp [FileStatus.oldPath?] at h
      · split at h
        · exact oldPath?_ofStates h
        · simp [FileStatus.oldPath?] at h
  · simp [FileStatus.oldPath?] at h

theorem Entry.oldPath?_of_status {entry : Entry} {old : String}
    (h : entry.status.oldPath? = some old) : entry.oldPath? = some old := by
  unfold Entry.status at h
  split at h
  · simp [FileStatus.oldPath?] at h
  · exact oldPath?_ofStatusCode h

theorem Entry.status_of_change? {entry : Entry} {change : FileChange}
    (h : entry.change? = some change) : change.status = entry.status := by
  unfold Entry.change? at h
  split at h
  · cases h
  · cases h
  · cases h
    rfl

/-! ## Entries -/

section
variable {tracked : Tracked} {columns : Columns 5} {score : Score} {path source : Path}
  {entry : Entry}

theorem status_of_moved (h : (moved tracked columns score path source).item = .entry entry) :
    entry.status = FileStatus.ofLetters tracked.index.1 tracked.worktree.1 (some source.1) := by
  obtain rfl := Item.entry.inj h
  have hsplit : Code.split? (String.ofList tracked.code) =
      some (tracked.index.1, tracked.worktree.1) :=
    Code.split?_eq_some_iff.2 (by simp [Tracked.code])
  obtain ⟨_ | _, similarity⟩ := score <;>
    simp [Entry.status, Entry.oldPath?, Entry.Kind.oldPath?, Score.kind, FileStatus.ofStatusCode,
      hsplit]

theorem isShown_of_agrees (h : (moved tracked columns score path source).item = .entry entry)
    (hagrees : score.Agrees tracked) : entry.isShown := by
  obtain rfl := Item.entry.inj h
  have hkind : score.kind source.1 ≠ .ignored := by
    unfold Score.kind
    split <;> simp
  have hcode : tracked.code ≠ ['A', 'D'] := fun hcode => by
    have hletter := hagrees.2
    rw [hcode] at hletter
    revert hletter
    split <;> decide
  simpa [Entry.isShown, hkind, ← String.toList_inj] using hcode

end

theorem keepsSource {written : Written} {entry : Entry} (h : written.item = .entry entry) :
    written.KeepsSource entry.change? := by
  have hold : ∀ change, entry.change? = some change → ∀ old, change.status.oldPath? = some old →
      entry.oldPath? = some old := fun change hchange old hstatus =>
    Entry.oldPath?_of_status (Entry.status_of_change? hchange ▸ hstatus)
  have hnone (hplain : entry.oldPath? = none) :
      ∀ change, entry.change? = some change → change.status.oldPath? = none := by
    intro change hchange
    refine Option.eq_none_iff_forall_not_mem.2 fun old hstatus => ?_
    rw [hold change hchange old hstatus] at hplain
    cases hplain
  cases written with
  | moved tracked columns score path source =>
    have hstatus := status_of_moved h
    have hpath : ∀ change, entry.change? = some change → change.path = path.1 := by
      obtain rfl := Item.entry.inj h
      exact fun change hchange => Entry.path_eq_of_change? hchange
    refine ⟨⟨?_, fun hagrees => ?_⟩, fun change hchange =>
      ⟨hpath change hchange, fun old hchanged => ?_⟩⟩
    · rintro ⟨change, hchange, -, hscore⟩
      rw [Entry.status_of_change? hchange, hstatus] at hscore
      exact (ofLetters_eq_status_iff tracked score source.1).1 hscore
    · obtain ⟨change, hchange⟩ := Option.isSome_iff_exists.1
        ((isSome_change?_of_item h).trans (isShown_of_agrees h hagrees))
      refine ⟨change, hchange, hpath change hchange, ?_⟩
      rw [Entry.status_of_change? hchange, hstatus]
      exact (ofLetters_eq_status_iff tracked score source.1).2 hagrees
    · have hsource := hold change hchange old hchanged
      obtain rfl := Item.entry.inj h
      obtain ⟨_ | _, similarity⟩ := score <;> exact (Option.some.inj hsource).symm
  | header value => cases h
  | ordinary tracked columns path =>
    obtain rfl := Item.entry.inj h
    exact hnone rfl
  | unmerged tracked columns path =>
    obtain rfl := Item.entry.inj h
    exact hnone rfl
  | untracked path =>
    obtain rfl := Item.entry.inj h
    exact hnone rfl
  | ignored path =>
    obtain rfl := Item.entry.inj h
    exact hnone rfl

/-! ## Outputs -/

/-- **A rename or copy is shown as what its score says exactly where its code agrees.** Every entry
that is yielded on an output comes from a written record at its place. If that is the record of a
rename or copy, its path is shown with the status of its score and with its own source if and only
if the code agrees; no other path and no other source is shown in any case. No other record gives a
source. -/
theorem exists_keepsSource {output : String} {i : Nat} {entry : Entry}
    (h : (items output)[i]? = some (.ok (.entry entry))) :
    ∃ written : Written, (Record.ofOutput output)[i]? = some written.record ∧
      written.item = .entry entry ∧ written.KeepsSource entry.change? := by
  obtain ⟨written, hrecord, hitem⟩ := exists_written_of_getElem?_items h
  exact ⟨written, hrecord, hitem, keepsSource hitem⟩

/-- A rename after an untracked path, with a source that looks like a record itself. -/
theorem exists_keepsSource_renamed :
    (items "? x\x002 RM N... 1 2 3 a b R100 new\x00? y")[1]? =
        some (.ok (.entry ⟨.renamed "? y", "new", "RM", none⟩)) ∧
      ∃ change, Entry.change? ⟨.renamed "? y", "new", "RM", none⟩ = some change ∧
        change.path = "new" ∧ change.status = .renamed "? y" := by
  have hitem : (items "? x\x002 RM N... 1 2 3 a b R100 new\x00? y")[1]? =
      some (.ok (.entry ⟨.renamed "? y", "new", "RM", none⟩)) := by rfl
  refine ⟨hitem, ?_⟩
  obtain ⟨written, -, hwritten, hkeeps⟩ := exists_keepsSource hitem
  cases written with
  | moved tracked columns score path source =>
    simp only [Written.item, Item.entry.injEq, Entry.mk.injEq, ← String.toList_inj,
      String.toList_ofList] at hwritten
    obtain ⟨hkind, hpath, hcode, -⟩ := hwritten
    obtain ⟨_ | _, similarity⟩ := score
    · obtain ⟨change, hchange, hnew, hstatus⟩ := hkeeps.1.2 (by simp [Score.Agrees, hcode])
      refine ⟨change, hchange, hnew.trans (String.toList_inj.1 hpath), ?_⟩
      rw [hstatus, ← Entry.Kind.renamed.inj hkind]
      rfl
    · cases hkind
  | _ => cases hwritten

/-- A rename whose code has no `R` is shown as a modification, or as a copy where the code has a
`C`. -/
theorem change?_renamed_ne :
    items "2 M. N... 1 2 3 a b R100 new\x00old" =
        [.ok (.entry ⟨.renamed "old", "new", "M.", none⟩)] ∧
      (¬∃ change, Entry.change? ⟨.renamed "old", "new", "M.", none⟩ = some change ∧
        change.path = "new" ∧ change.status = .renamed "old") ∧
      items "2 C. N... 1 2 3 a b R100 new\x00old" =
        [.ok (.entry ⟨.renamed "old", "new", "C.", none⟩)] ∧
      ¬∃ change, Entry.change? ⟨.renamed "old", "new", "C.", none⟩ = some change ∧
        change.path = "new" ∧ change.status = .renamed "old" := by
  refine ⟨by rfl, ?_, by rfl, ?_⟩
  · rintro ⟨change, hchange, -, hstatus⟩
    rw [Entry.status_of_change? hchange] at hstatus
    revert hstatus
    decide +kernel
  · rintro ⟨change, hchange, -, hstatus⟩
    rw [Entry.status_of_change? hchange] at hstatus
    revert hstatus
    decide +kernel

end GitReadout.Status
