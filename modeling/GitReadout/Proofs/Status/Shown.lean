import GitReadout.Proofs.Status.Stream
import GitReadout.Proofs.Status.WorkingTree

/-!
# Entries that are shown

Every entry that can be read has two letters that have a meaning, so nothing keeps it from being
shown but being ignored or having the code `AD`. What a working tree holds is then said by the shown
entries alone.

* `isSome_change?_of_readAll`: which of the entries read are shown.
* `shows_ofList`: the working tree of the changes of entries shows those that are shown.
-/

set_option autoImplicit false

namespace GitReadout.Status

/-- Whether the path of an entry is shown: it is not ignored, nor was it added to the index and then
deleted from the working tree. -/
def Entry.isShown (entry : Entry) : Bool :=
  entry.kind ≠ .ignored && entry.code ≠ "AD"

def Item.entry? : Item → Option Entry
  | .header _ => none
  | .entry e => some e

def entriesOf (items : List Item) : List Entry :=
  items.filterMap Item.entry?

/-- The working tree holds each path of the entries once, in the order of the first entry of each,
with the change that the last entry of the path describes. -/
structure WorkingTree.Shows (tree : WorkingTree) (entries : List Entry) : Prop where
  paths : tree.toList.map FileChange.path = (entries.map Entry.path).eraseDups
  change : ∀ path, tree.get? path =
    (entries.filter fun entry => entry.path = path).getLast?.bind Entry.change?
  files : ∀ change ∈ tree.toList, tree.get? change.path = some change

/-! ## Which entries are shown -/

theorem exists_state_of_mem {c : Char} (h : c ∈ codeLetters) :
    ∃ state, SideState.ofCode? c = some state ∧ (state = .added ↔ c = 'A') ∧
      (state = .deleted ↔ c = 'D') := by
  simp only [codeLetters, List.mem_cons, List.not_mem_nil, or_false] at h
  rcases h with rfl | rfl | rfl | rfl | rfl | rfl | rfl | rfl <;>
    exact ⟨_, rfl, by decide, by decide⟩

theorem isSome_change?_iff {entry : Entry} {index worktree : SideState}
    (h : entry.states? = some (index, worktree)) :
    entry.change?.isSome ↔ ¬(index = .added ∧ worktree = .deleted) := by
  unfold Entry.change?
  split <;> simp_all

theorem isSome_change?_of_letters {entry : Entry} {x y : Char} (hx : x ∈ codeLetters)
    (hy : y ∈ codeLetters) (hcode : entry.code = String.ofList [x, y])
    (htracked : entry.kind ≠ .ignored ∧ entry.kind ≠ .untracked) :
    entry.change?.isSome = entry.isShown := by
  obtain ⟨index, hindex, hadded, -⟩ := exists_state_of_mem hx
  obtain ⟨worktree, hworktree, -, hdeleted⟩ := exists_state_of_mem hy
  have hsplit : Code.split? entry.code = some (x, y) := by
    rw [Code.split?_eq_some_iff, hcode, String.toList_ofList]
  have hstates : entry.states? = some (index, worktree) := by
    unfold Entry.states?
    split
    · exact absurd ‹_› htracked.1
    · exact absurd ‹_› htracked.2
    · simp [hsplit, hindex, hworktree]
  have hAD : entry.code = "AD" ↔ x = 'A' ∧ y = 'D' := by
    rw [hcode, ← String.toList_inj]
    simp
  rw [Bool.eq_iff_iff, isSome_change?_iff hstates, hadded, hdeleted]
  simp [Entry.isShown, htracked.1, hAD, not_and_or, -not_and]

theorem isSome_change?_of_item {written : Written} {entry : Entry}
    (h : written.item = .entry entry) : entry.change?.isSome = entry.isShown := by
  cases written with
  | header value => cases h
  | ordinary tracked columns path =>
    cases h
    exact isSome_change?_of_letters tracked.index.2 tracked.worktree.2 rfl (by simp)
  | moved tracked columns score path source =>
    cases h
    refine isSome_change?_of_letters tracked.index.2 tracked.worktree.2 rfl ?_
    unfold Written.Score.kind
    split <;> simp
  | unmerged tracked columns path =>
    cases h
    exact isSome_change?_of_letters tracked.index.2 tracked.worktree.2 rfl (by simp)
  | untracked path =>
    cases h
    rfl
  | ignored path =>
    cases h
    rfl

theorem isSome_change?_of_readAll {output : String} {found : List Item}
    (h : readAll output = .ok found) :
    ∀ entry ∈ entriesOf found, entry.change?.isSome = entry.isShown := by
  intro entry hentry
  obtain ⟨ws, -, rfl⟩ := exists_writes_of_readAll h
  obtain ⟨item, hitem, hsome⟩ := List.mem_filterMap.1 hentry
  obtain ⟨written, -, rfl⟩ := List.mem_map.1 hitem
  have hwritten : written.item = .entry entry := by
    unfold Item.entry? at hsome
    split at hsome
    · cases hsome
    · rename_i hitem
      rw [hitem, Option.some.inj hsome]
  exact isSome_change?_of_item hwritten

/-! ## The working tree of entries -/

section
variable {entries : List Entry} (h : ∀ entry ∈ entries, entry.change?.isSome = entry.isShown)
include h

theorem map_path_changes : (entries.filterMap Entry.change?).map FileChange.path =
    (entries.filter Entry.isShown).map Entry.path := by
  induction entries with
  | nil => rfl
  | cons entry rest ih =>
    have ih := ih fun e he => h e (List.mem_cons_of_mem _ he)
    have hentry := h entry (by simp)
    cases hchange : entry.change? with
    | none =>
      rw [List.filterMap_cons_none hchange, ih, List.filter_cons_of_neg]
      simp [← hentry, hchange]
    | some change =>
      rw [List.filterMap_cons_some hchange, List.filter_cons_of_pos (by simp [← hentry, hchange]),
        List.map_cons, List.map_cons, ih, Entry.path_eq_of_change? hchange]

theorem getLast?_changes (path : String) :
    ((entries.filterMap Entry.change?).filter fun change => change.path = path).getLast? =
      ((entries.filter Entry.isShown).filter fun entry => entry.path = path).getLast?.bind
        Entry.change? := by
  induction entries using List.reverseRecOn with
  | nil => rfl
  | append_singleton entries entry ih =>
    have ih := ih fun e he => h e (List.mem_append_left _ he)
    have hentry := h entry (by simp)
    cases hchange : entry.change? with
    | none =>
      have hshown : entry.isShown = false := by rw [← hentry, hchange, Option.isSome_none]
      simpa [List.filterMap_append, List.filter_append, hchange, hshown] using ih
    | some change =>
      have hshown : entry.isShown = true := by rw [← hentry, hchange, Option.isSome_some]
      have hpath := Entry.path_eq_of_change? hchange
      by_cases he : entry.path = path
      · simp [List.filterMap_append, List.filter_append, hchange, hshown, hpath, he]
      · simpa [List.filterMap_append, List.filter_append, hchange, hshown, hpath, he] using ih

theorem shows_ofList : (WorkingTree.ofList (entries.filterMap Entry.change?)).Shows
    (entries.filter Entry.isShown) := by
  constructor
  · rw [← map_path_changes h]
    exact WorkingTree.paths_ofList _
  · intro path
    rw [WorkingTree.get?_ofList, getLast?_changes h]
  · exact fun change hmem => WorkingTree.get?_of_mem (WorkingTree.isIndexed_ofList _) hmem

end

end GitReadout.Status
