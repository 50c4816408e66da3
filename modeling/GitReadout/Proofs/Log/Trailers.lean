import GitReadout.Log.Trailers
import Mathlib.Algebra.Ring.Nat
import Mathlib.Data.List.Dedup
import Mathlib.Data.List.Induction

/-!
# What trailers hold

Trailers to which values were added one by one have one entry for each key, so what is found under
a key is all that was recorded under it. Grouping values under keys loses nothing that is counted
over all keys and values, as long as the spelling of a key does not count.

* `IsGrouped`: the invariant; `IsGrouped.add` is its step, `isGrouped_ofList` its run.
* `size_eq_iff`, `getD_get?_eq_recorded`: what the invariant is for.
* `total_add`: adding a value adds its weight, under whichever entry it is kept.
* `total_ofList`: the trailers of a list weigh what the list weighs.
-/

set_option autoImplicit false

namespace GitReadout.Log.Trailers

/-! ## Keys -/

/-- The keys of the entries, without the case of their letters. -/
def keys (trailers : Trailers) : List (List Char) :=
  trailers.entries.map fun entry => foldKey entry.1

/-- No two entries have the same key. -/
def IsGrouped (trailers : Trailers) : Prop :=
  trailers.keys.Nodup

/-- The values that any entry has under a key. -/
def recorded (trailers : Trailers) (key : String) : List String :=
  (trailers.entries.filter fun entry => sameKey entry.1 key).flatMap (·.2)

theorem keys_add (trailers : Trailers) (key value : String) :
    (trailers.add key value).keys =
      if foldKey key ∈ trailers.keys then trailers.keys else trailers.keys ++ [foldKey key] := by
  obtain ⟨entries⟩ := trailers
  simp only [add, keys]
  induction entries with
  | nil => simp [addEntry]
  | cons entry rest ih =>
    obtain ⟨known, values⟩ := entry
    unfold addEntry
    by_cases hsame : sameKey known key
    · simp [hsame, sameKey_iff.1 hsame]
    · have hne : foldKey key ≠ foldKey known := fun e => hsame (sameKey_iff.2 e.symm)
      rw [if_neg hsame, List.map_cons, ih]
      by_cases hmem : foldKey key ∈ rest.map fun entry => foldKey entry.1 <;> simp [hmem, hne]

theorem IsGrouped.add {trailers : Trailers} (h : trailers.IsGrouped) (key value : String) :
    (trailers.add key value).IsGrouped := by
  rw [IsGrouped, keys_add]
  split
  · exact h
  · rename_i hnew
    exact List.nodup_append.2 ⟨h, by simp, fun a ha b hb => by
      rw [List.mem_singleton.1 hb]
      exact fun e => hnew (e ▸ ha)⟩

theorem isGrouped_ofList (pairs : List (String × String)) : (ofList pairs).IsGrouped := by
  induction pairs using List.reverseRecOn with
  | nil => exact List.nodup_nil
  | append_singleton pairs pair ih =>
    rw [ofList, List.foldl_append]
    exact ih.add pair.1 pair.2

/-- There are as many entries as keys if and only if no two entries have the same key. -/
theorem size_eq_iff {trailers : Trailers} :
    trailers.size = trailers.keys.dedup.length ↔ trailers.IsGrouped := by
  have hsize : trailers.size = trailers.keys.length := by simp [size, keys]
  rw [hsize, IsGrouped, ← List.dedup_eq_self, eq_comm]
  exact (List.dedup_sublist _).length_eq

/-- What is found under a key is all that was recorded under it. -/
theorem getD_get?_eq_recorded {trailers : Trailers} (h : trailers.IsGrouped) (key : String) :
    (trailers.get? key).getD [] = trailers.recorded key := by
  obtain ⟨entries⟩ := trailers
  simp only [IsGrouped, get?, keys, recorded] at h ⊢
  induction entries with
  | nil => rfl
  | cons entry rest ih =>
    obtain ⟨hnew, hrest⟩ := List.nodup_cons.1 h
    by_cases hsame : sameKey entry.1 key
    · -- then no entry behind has the key
      have hnone : rest.filter (fun entry => sameKey entry.1 key) = [] := by
        refine List.filter_eq_nil_iff.2 fun other hother hkey => hnew ?_
        exact List.mem_map.2
          ⟨other, hother, (sameKey_iff.1 hkey).trans (sameKey_iff.1 hsame).symm⟩
      simp [hsame, hnone]
    · simpa [hsame] using ih hrest

/-! ## Weights -/

/-- The sum of the weights of all values, each under its key. -/
def total (weight : String → String → Nat) (trailers : Trailers) : Nat :=
  (trailers.entries.map fun entry => (entry.2.map (weight entry.1)).sum).sum

theorem length_eq_of_sameKey {a b : String} (h : sameKey a b) :
    a.toList.length = b.toList.length := by
  have hfold := congrArg List.length (sameKey_iff.1 h)
  simpa [foldKey] using hfold

variable {weight : String → String → Nat}
  (h : ∀ a b value, sameKey a b → weight a value = weight b value)
include h

theorem total_add (trailers : Trailers) (key value : String) :
    (trailers.add key value).total weight = trailers.total weight + weight key value := by
  obtain ⟨entries⟩ := trailers
  simp only [add, total]
  induction entries with
  | nil => simp [addEntry]
  | cons entry rest ih =>
    obtain ⟨known, values⟩ := entry
    unfold addEntry
    split
    · rename_i hsame
      simp only [List.map_cons, List.map_append, List.map_nil, List.sum_cons, List.sum_append,
        List.sum_nil, h known key value hsame]
      omega
    · simp only [List.map_cons, List.sum_cons, ih]
      omega

theorem total_ofList (pairs : List (String × String)) :
    (ofList pairs).total weight = (pairs.map fun pair => weight pair.1 pair.2).sum := by
  induction pairs using List.reverseRecOn with
  | nil => rfl
  | append_singleton pairs pair ih =>
    rw [ofList, List.foldl_append, List.foldl_cons, List.foldl_nil, ← ofList, total_add h, ih]
    simp

end GitReadout.Log.Trailers
