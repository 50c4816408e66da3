import GitReadout.Status.WorkingTree
import Mathlib.Data.List.Induction
import Mathlib.Data.List.Nodup

/-!
# What a working tree holds

The positions beside the files always agree with them, so a path is found where it stands, and a
working tree is known from the changes that were inserted: which path stands where, from the first
change of each path, and what is held for it, from the last.

* `IsIndexed`: the invariant; `IsIndexed.insert` is its step, `isIndexed_ofList` its run.
* `paths_ofList`, `get?_ofList`: the paths of inserted changes and the change held for each.
* `map_get?_paths`: the changes of a working tree are those that are found for its paths.
* `ofList_toList`: a working tree is made of its changes.
-/

set_option autoImplicit false

namespace GitReadout.Status.WorkingTree

def paths (tree : WorkingTree) : List String :=
  tree.toList.map FileChange.path

/-- The position kept for a path is where the path stands. -/
def IsIndexed (tree : WorkingTree) : Prop :=
  ∀ (path : String) (i : Nat), tree.positions[path]? = some i ↔ tree.paths[i]? = some path

variable {tree : WorkingTree} {change : FileChange}

theorem insert_of_known {i : Nat} (h : tree.positions[change.path]? = some i) :
    tree.insert change = { tree with files := tree.files.setIfInBounds i change } := by
  rw [insert, h]

theorem insert_of_new (h : tree.positions[change.path]? = none) :
    tree.insert change =
      { files := tree.files.push change
        positions := tree.positions.insert change.path tree.files.size } := by
  rw [insert, h]

theorem mem_toList_of_get? {path : String} (h : tree.get? path = some change) :
    change ∈ tree.toList := by
  obtain ⟨i, -, hi⟩ := Option.bind_eq_some_iff.1 h
  exact Array.mem_toList_iff.2 (Array.mem_of_getElem? hi)

theorem length_paths : tree.paths.length = tree.files.size := by
  simp [paths, toList]

theorem getElem?_paths {i : Nat} : tree.paths[i]? = tree.files[i]?.map FileChange.path := by
  simp [paths, toList]

theorem positions_insert_of_new (h : tree.positions[change.path]? = none) (path : String) :
    (tree.insert change).positions[path]? =
      if change.path = path then some tree.files.size else tree.positions[path]? := by
  simp only [insert_of_new h, Std.ExtTreeMap.getElem?_insert, Std.LawfulEqOrd.compare_eq_iff_eq]

section
variable (h : tree.IsIndexed)
include h

theorem mem_paths_iff {path : String} :
    path ∈ tree.paths ↔ ∃ i, tree.positions[path]? = some i := by
  simp only [List.mem_iff_getElem?, h path]

theorem not_mem_paths_of_new (hpos : tree.positions[change.path]? = none) :
    change.path ∉ tree.paths := by
  rw [mem_paths_iff h, hpos]
  simp

theorem paths_insert_of_known {i : Nat} (hpos : tree.positions[change.path]? = some i) :
    (tree.insert change).paths = tree.paths := by
  obtain ⟨hlt, hget⟩ := List.getElem?_eq_some_iff.1 ((h _ _).1 hpos)
  have hset : (tree.insert change).paths = tree.paths.set i change.path := by
    simp [insert_of_known hpos, paths, toList, List.map_set]
  rw [hset, ← hget, List.set_getElem_self]

omit h in
theorem paths_insert_of_new (hpos : tree.positions[change.path]? = none) :
    (tree.insert change).paths = tree.paths ++ [change.path] := by
  simp [insert_of_new hpos, paths, toList]

theorem IsIndexed.insert (change : FileChange) : (tree.insert change).IsIndexed := by
  intro path i
  cases hpos : tree.positions[change.path]? with
  | some j =>
    rw [paths_insert_of_known h hpos, insert_of_known hpos]
    exact h path i
  | none =>
    rw [positions_insert_of_new hpos, paths_insert_of_new hpos, List.getElem?_append,
      length_paths]
    by_cases hlt : i < tree.files.size
    · rw [if_pos hlt, ← h path i]
      split
      · rename_i hpath
        rw [← hpath, hpos]
        simp only [Option.some.injEq, reduceCtorEq, iff_false]
        omega
      · rfl
    · rw [if_neg hlt]
      split
      · rename_i hpath
        rw [Option.some.injEq, List.getElem?_singleton]
        split
        · simp only [hpath, iff_true]
          omega
        · simp only [reduceCtorEq, iff_false]
          omega
      · rename_i hpath
        -- no path that was there before has a position past the end
        have hnone : tree.positions[path]? ≠ some i := fun hi => by
          have := (List.getElem?_eq_some_iff.1 ((h path i).1 hi)).1
          rw [length_paths] at this
          omega
        simp only [hnone, false_iff]
        intro hget
        exact hpath (List.mem_singleton.1 (List.mem_of_getElem? hget)).symm

theorem get?_insert (path : String) :
    (tree.insert change).get? path =
      if change.path = path then some change else tree.get? path := by
  cases hpos : tree.positions[change.path]? with
  | some i =>
    have hlt := (List.getElem?_eq_some_iff.1 ((h _ _).1 hpos)).1
    rw [length_paths] at hlt
    rw [insert_of_known hpos]
    by_cases hpath : change.path = path
    · rw [if_pos hpath]
      simp [get?, ← hpath, hpos, hlt]
    · rw [if_neg hpath]
      cases hother : tree.positions[path]? with
      | none => simp [get?, hother]
      | some j =>
        -- two paths cannot stand at one position
        have hne : i ≠ j := by
          rintro rfl
          exact hpath (Option.some.inj (((h _ _).1 hpos).symm.trans ((h _ _).1 hother)))
        simp [get?, hother, hne]
  | none =>
    rw [get?, positions_insert_of_new hpos, insert_of_new hpos]
    by_cases hpath : change.path = path
    · simp [hpath]
    · rw [if_neg hpath, if_neg hpath, get?]
      cases hother : tree.positions[path]? with
      | none => rfl
      | some j =>
        have hlt := (List.getElem?_eq_some_iff.1 ((h _ _).1 hother)).1
        rw [length_paths] at hlt
        simp [Array.getElem?_push_lt hlt]

theorem map_get?_paths : tree.paths.map tree.get? = tree.toList.map some := by
  refine List.ext_getElem? fun i => ?_
  rw [List.getElem?_map, List.getElem?_map, getElem?_paths]
  cases hget : tree.files[i]? with
  | none => simp [toList, hget]
  | some change =>
    have hpos := (h change.path i).2 (by rw [getElem?_paths, hget]; rfl)
    simp [toList, get?, hget, hpos]

theorem get?_of_mem (hmem : change ∈ tree.toList) : tree.get? change.path = some change := by
  have hfiles := map_get?_paths h
  rw [paths, List.map_map] at hfiles
  exact List.map_inj_left.1 hfiles change hmem

theorem path_of_get? {path : String} (hget : tree.get? path = some change) :
    change.path = path := by
  obtain ⟨i, hpos, hi⟩ := Option.bind_eq_some_iff.1 hget
  have hpath := (h path i).1 hpos
  rw [getElem?_paths, hi, Option.map_some, Option.some.injEq] at hpath
  exact hpath

theorem nodup_paths : tree.paths.Nodup := by
  refine List.nodup_iff_getElem?_ne_getElem?.2 fun i j hij hj heq => ?_
  obtain ⟨path, hpath⟩ : ∃ path, tree.paths[j]? = some path := ⟨_, List.getElem?_eq_getElem hj⟩
  have hi := (h path i).2 (heq.trans hpath)
  have hj := (h path j).2 hpath
  rw [hi, Option.some.injEq] at hj
  omega

/-- The files leave no choice of the positions. -/
theorem eq_of_toList_eq {other : WorkingTree} (hother : other.IsIndexed)
    (heq : tree.toList = other.toList) : tree = other := by
  have hpositions : tree.positions = other.positions := by
    refine Std.ExtTreeMap.ext_getElem? fun {path} => ?_
    have hpaths : tree.paths = other.paths := by rw [paths, heq, paths]
    refine Option.ext fun i => ?_
    rw [h path i, hother path i, hpaths]
  have hfiles : tree.files = other.files := Array.toList_inj.1 heq
  cases tree
  cases other
  simp_all

end

/-! ## Inserted changes -/

@[simp] theorem ofList_nil : ofList [] = empty := rfl

@[simp] theorem ofList_concat (changes : List FileChange) (change : FileChange) :
    ofList (changes ++ [change]) = (ofList changes).insert change := by
  rw [ofList, List.foldl_append]
  rfl

theorem isIndexed_ofList (changes : List FileChange) : (ofList changes).IsIndexed := by
  induction changes using List.reverseRecOn with
  | nil => simp [IsIndexed, empty, paths, toList]
  | append_singleton changes change ih =>
    rw [ofList_concat]
    exact ih.insert change

theorem paths_ofList (changes : List FileChange) :
    (ofList changes).paths = (changes.map FileChange.path).eraseDups := by
  induction changes using List.reverseRecOn with
  | nil => rfl
  | append_singleton changes change ih =>
    have h := isIndexed_ofList changes
    rw [ofList_concat, List.map_append, List.eraseDups_append, ← ih, List.map_singleton,
      List.cons_removeAll]
    cases hpos : (ofList changes).positions[change.path]? with
    | some i =>
      have hmem := (mem_paths_iff h).2 ⟨i, hpos⟩
      rw [ih, List.mem_eraseDups] at hmem
      rw [paths_insert_of_known h hpos, if_neg (by simpa using hmem)]
      simp
    | none =>
      have hnew := not_mem_paths_of_new h hpos
      rw [ih, List.mem_eraseDups] at hnew
      rw [paths_insert_of_new hpos, if_pos (by simpa using hnew)]
      rfl

theorem get?_ofList (changes : List FileChange) (path : String) :
    (ofList changes).get? path = (changes.filter fun change => change.path = path).getLast? := by
  induction changes using List.reverseRecOn with
  | nil => simp [empty, get?]
  | append_singleton changes change ih =>
    rw [ofList_concat, get?_insert (isIndexed_ofList changes), ih, List.filter_append]
    by_cases hpath : change.path = path <;> simp [hpath]

theorem toList_ofList {changes : List FileChange}
    (hnodup : (changes.map FileChange.path).Nodup) : (ofList changes).toList = changes := by
  induction changes using List.reverseRecOn with
  | nil => rfl
  | append_singleton changes change ih =>
    rw [List.map_append, List.map_singleton, List.nodup_append] at hnodup
    obtain ⟨hbefore, -, hnew⟩ := hnodup
    -- the path is none of those before, so the change goes to the end
    have hpaths : (ofList changes).paths = changes.map FileChange.path := by
      rw [paths, ih hbefore]
    have hpos : (ofList changes).positions[change.path]? = none := by
      refine Option.eq_none_iff_forall_ne_some.2 fun i hi => ?_
      have hmem := (mem_paths_iff (isIndexed_ofList changes)).2 ⟨i, hi⟩
      rw [hpaths] at hmem
      exact hnew _ hmem _ (by simp) rfl
    rw [ofList_concat, insert_of_new hpos]
    simpa [toList] using ih hbefore

/-- A working tree is made of its changes. -/
theorem ofList_toList (h : tree.IsIndexed) : ofList tree.toList = tree :=
  eq_of_toList_eq (isIndexed_ofList _) h (toList_ofList (nodup_paths h))

end GitReadout.Status.WorkingTree
