import GitReadout.Proofs.Status.WorkingTree
import Mathlib.Data.Finset.Card
import Mathlib.Data.Finset.Dedup

/-!
# Working trees and their history

A working tree comes from the empty one by insertions, and in between it may be turned into the list
of its changes and back. What it then holds depends on the inserted changes only: the files stand in
the order in which their paths were first inserted, each with the change that was inserted last.

* `step_ofList`, `run_eq_ofList`: a step of a history, and a whole history.
* `IsIndexed.position_iff`, `IsIndexed.size_positions`: what the invariant says of the positions.
* `Reflects`: what a working tree holds after changes were inserted.
* `run_reflects`: every history.
-/

set_option autoImplicit false

namespace GitReadout.Status.WorkingTree

/-! ## Histories -/

/-- What is done to a working tree. -/
inductive Step where
  | insert (change : FileChange)
  /-- The working tree is turned into the list of its changes and back. -/
  | rebuild
deriving DecidableEq

/-- The change that a step inserts. -/
def Step.change? : Step → Option FileChange
  | insert change => some change
  | rebuild => none

def step (tree : WorkingTree) : Step → WorkingTree
  | .insert change => tree.insert change
  | .rebuild => ofList tree.toList

/-- The working tree after steps from the empty one. -/
def run (steps : List Step) : WorkingTree :=
  steps.foldl step empty

/-- The changes that steps insert, in order. -/
def inserted (steps : List Step) : List FileChange :=
  steps.filterMap Step.change?

/-- The change of a path that was inserted last. -/
def latest (path : String) (changes : List FileChange) : Option FileChange :=
  (changes.filter fun change => change.path = path).getLast?

theorem run_concat (steps : List Step) (last : Step) :
    run (steps ++ [last]) = (run steps).step last := by
  rw [run, List.foldl_append]
  rfl

theorem step_ofList (changes : List FileChange) (last : Step) :
    (ofList changes).step last = ofList (changes ++ last.change?.toList) := by
  cases last with
  | insert change =>
    show (ofList changes).insert change = ofList (changes ++ [change])
    rw [ofList_concat]
  | rebuild =>
    show ofList (ofList changes).toList = ofList (changes ++ [])
    rw [ofList_toList (isIndexed_ofList changes), List.append_nil]

/-- A history leaves what its insertions alone leave. -/
theorem run_eq_ofList (steps : List Step) : run steps = ofList (inserted steps) := by
  induction steps using List.reverseRecOn with
  | nil => rfl
  | append_singleton steps last ih =>
    have hinserted : inserted (steps ++ [last]) = inserted steps ++ last.change?.toList := by
      rw [inserted, List.filterMap_append]
      cases last <;> rfl
    rw [run_concat, ih, step_ofList, hinserted]

/-! ## Positions -/

section
variable {tree : WorkingTree} (h : tree.IsIndexed)
include h

theorem IsIndexed.position_iff {path : String} {i : Nat} :
    tree.positions[path]? = some i ↔ ∃ hlt : i < tree.files.size, tree.files[i].path = path := by
  rw [h path i, getElem?_paths, Option.map_eq_some_iff]
  constructor
  · intro hfile
    obtain ⟨change, hget, hpath⟩ := hfile
    obtain ⟨hlt, hfile⟩ := Array.getElem?_eq_some_iff.1 hget
    exact ⟨hlt, by rw [hfile, hpath]⟩
  · intro hfile
    obtain ⟨hlt, hpath⟩ := hfile
    exact ⟨tree.files[i], Array.getElem?_eq_getElem hlt, hpath⟩

/-- The paths with a position are the paths of the files, and neither list has one twice. -/
theorem IsIndexed.size_positions : tree.positions.size = tree.files.size := by
  have hmem : ∀ path, path ∈ tree.positions.keys ↔ path ∈ tree.paths := by
    intro path
    rw [Std.ExtTreeMap.mem_keys, Std.ExtTreeMap.mem_iff_isSome_getElem?, mem_paths_iff h,
      Option.isSome_iff_exists]
  have hperm : tree.positions.keys.Perm tree.paths :=
    (List.perm_ext_iff_of_nodup Std.ExtTreeMap.nodup_keys (nodup_paths h)).2 hmem
  rw [← Std.ExtTreeMap.length_keys, hperm.length_eq, length_paths]

/-- The files are the changes that are found. -/
theorem IsIndexed.mem_toList_iff {change : FileChange} :
    change ∈ tree.toList ↔ ∃ path, tree.get? path = some change := by
  constructor
  · intro hmem
    exact ⟨change.path, get?_of_mem h hmem⟩
  · intro hget
    obtain ⟨path, hget⟩ := hget
    exact mem_toList_of_get? hget

end

/-! ## What is held -/

/-- What a working tree holds after changes were inserted. -/
structure Reflects (tree : WorkingTree) (changes : List FileChange) : Prop where
  /-- There are as many positions as files, -/
  size_positions : tree.positions.size = tree.files.size
  /-- each within the files and at the file of its path, -/
  position_iff : ∀ path i, tree.positions[path]? = some i ↔
    ∃ hlt : i < tree.files.size, tree.files[i].path = path
  /-- and no path has two files. -/
  nodup_paths : (tree.toList.map FileChange.path).Nodup
  /-- Of the changes of a path the last one is found, -/
  get?_eq : ∀ path, tree.get? path = latest path changes
  /-- and the files are these, in the order in which their paths were first inserted. -/
  toList_eq : tree.toList.map some =
    (changes.map FileChange.path).eraseDups.map fun path => latest path changes
  /-- There are as many files as paths that were inserted. -/
  size_eq : tree.size = (changes.map FileChange.path).toFinset.card
  hasConflicts_iff : tree.hasConflicts ↔
    ∃ path change, latest path changes = some change ∧ change.status.isConflicted
  /-- Turning the working tree into a list and back changes nothing. -/
  ofList_toList : ofList tree.toList = tree

theorem size_ofList (changes : List FileChange) :
    (ofList changes).size = (changes.map FileChange.path).toFinset.card := by
  have hpaths : (ofList changes).paths.toFinset = (changes.map FileChange.path).toFinset := by
    ext path
    rw [List.mem_toFinset, List.mem_toFinset, paths_ofList, List.mem_eraseDups]
  calc (ofList changes).size
    _ = (ofList changes).paths.length := length_paths.symm
    _ = (ofList changes).paths.toFinset.card :=
      (List.toFinset_card_of_nodup (nodup_paths (isIndexed_ofList changes))).symm
    _ = (changes.map FileChange.path).toFinset.card := by rw [hpaths]

theorem hasConflicts_ofList_iff (changes : List FileChange) :
    (ofList changes).hasConflicts ↔
      ∃ path change, latest path changes = some change ∧ change.status.isConflicted := by
  have hany : (ofList changes).hasConflicts ↔
      ∃ change ∈ (ofList changes).toList, change.status.isConflicted := by
    simp only [hasConflicts, Array.any_eq_true', toList, Array.mem_toList_iff]
  rw [hany]
  constructor
  · intro hconflict
    obtain ⟨change, hmem, hconflict⟩ := hconflict
    obtain ⟨path, hget⟩ := (isIndexed_ofList changes).mem_toList_iff.1 hmem
    rw [get?_ofList] at hget
    exact ⟨path, change, hget, hconflict⟩
  · intro hconflict
    obtain ⟨path, change, hlatest, hconflict⟩ := hconflict
    have hget : (ofList changes).get? path = some change := by rw [get?_ofList]; exact hlatest
    exact ⟨change, (isIndexed_ofList changes).mem_toList_iff.2 ⟨path, hget⟩, hconflict⟩

theorem reflects_ofList (changes : List FileChange) : (ofList changes).Reflects changes := by
  have h := isIndexed_ofList changes
  have htoList : (ofList changes).toList.map some =
      (changes.map FileChange.path).eraseDups.map fun path => latest path changes := by
    rw [← map_get?_paths h, paths_ofList]
    exact List.map_congr_left fun path _ => get?_ofList changes path
  exact {
    size_positions := h.size_positions
    position_iff := fun _ _ => h.position_iff
    nodup_paths := nodup_paths h
    get?_eq := get?_ofList changes
    toList_eq := htoList
    size_eq := size_ofList changes
    hasConflicts_iff := hasConflicts_ofList_iff changes
    ofList_toList := ofList_toList h }

/-- **Every history.** After any sequence of insertions and of conversions to a list and back, the
positions agree with the files, and the working tree holds of each path the change that was inserted
last, where the path was inserted first. -/
theorem run_reflects (steps : List Step) : (run steps).Reflects (inserted steps) := by
  rw [run_eq_ofList]
  exact reflects_ofList (inserted steps)

end GitReadout.Status.WorkingTree
