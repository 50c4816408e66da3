import GitReadout.Proofs.Log.Trailers
import Mathlib.Data.Finset.Card
import Mathlib.Data.Finset.Dedup
import Mathlib.Data.List.Forall2

/-!
# Values grouped under keys

Trailers to which pairs of a key and a value were added one by one are known from the list of these
pairs. A value is added to the first entry that has its key, and since keys are the same if they
differ in the case of ASCII letters only, which is an equivalence, no other entry could have it.

* `sameKey_iff_forall₂`: which keys are the same, character by character.
* `addEntry_of_new`, `addEntry_of_known`: where a value is added.
* `entries_ofList`, `get?_ofList`, `size_ofList`: the entries of a list of pairs, what is found
  among them and how many there are.
* `groups_ofList`: all of this.
-/

set_option autoImplicit false

namespace GitReadout.Log.Trailers

/-! ## Keys, letter by letter -/

/-- Two characters are the same, or the upper and the lower case of one letter of ASCII. -/
def SameLetter (c d : Char) : Prop :=
  c = d ∨ ('A' ≤ c ∧ c ≤ 'Z') ∧ d.toNat = c.toNat + 32 ∨
    ('A' ≤ d ∧ d ≤ 'Z') ∧ c.toNat = d.toNat + 32

theorem toNat_toLower (c : Char) :
    c.toLower.toNat = if 'A' ≤ c ∧ c ≤ 'Z' then c.toNat + 32 else c.toNat := by
  unfold Char.toLower
  by_cases h : 'A' ≤ c ∧ c ≤ 'Z'
  · have hle : c.val.toNat ≤ 90 := h.2
    rw [if_pos h, dif_pos (by exact h)]
    show (c.val + 32).toNat = c.val.toNat + 32
    rw [UInt32.toNat_add]
    show (c.val.toNat + 32) % 4294967296 = c.val.toNat + 32
    omega
  · rw [if_neg h, dif_neg (by exact h)]

theorem toLower_eq_iff {c d : Char} : c.toLower = d.toLower ↔ SameLetter c d := by
  have hc : 'A' ≤ c ∧ c ≤ 'Z' ↔ 65 ≤ c.toNat ∧ c.toNat ≤ 90 := Iff.rfl
  have hd : 'A' ≤ d ∧ d ≤ 'Z' ↔ 65 ≤ d.toNat ∧ d.toNat ≤ 90 := Iff.rfl
  rw [← Char.toNat_inj, toNat_toLower, toNat_toLower, SameLetter, ← Char.toNat_inj]
  simp only [hc, hd]
  split <;> split <;> omega

theorem sameKey_iff_forall₂ {a b : String} :
    sameKey a b ↔ List.Forall₂ SameLetter a.toList b.toList := by
  have hletter : (fun c d : Char => c.toLower = d.toLower) = SameLetter := by
    funext c d
    exact propext toLower_eq_iff
  rw [sameKey_iff, foldKey, foldKey, ← List.forall₂_eq_eq_eq, List.forall₂_map_left_iff,
    List.forall₂_map_right_iff, hletter]

theorem sameKey_comm (a b : String) : sameKey a b = sameKey b a := by
  rw [Bool.eq_iff_iff, sameKey_iff, sameKey_iff, eq_comm]

theorem sameKey_congr {a b : String} (h : sameKey a b) (other : String) :
    sameKey other a = sameKey other b := by
  rw [Bool.eq_iff_iff, sameKey_iff, sameKey_iff, sameKey_iff.1 h]

theorem get?_congr {a b : String} (h : sameKey a b) (trailers : Trailers) :
    trailers.get? a = trailers.get? b := by
  simp only [get?, sameKey_congr h]

/-! ## Lists of pairs -/

/-- The values that are listed under a key, in order. -/
def valuesUnder (key : String) (pairs : List (String × String)) : List String :=
  (pairs.filter fun pair => sameKey pair.1 key).map (·.2)

/-- The keys that are listed, each as it is written first. -/
def firstKeys (pairs : List (String × String)) : List String :=
  (pairs.map (·.1)).eraseDupsBy sameKey

/-- What trailers hold to which the pairs of a list were added one by one. -/
structure Groups (trailers : Trailers) (pairs : List (String × String)) : Prop where
  /-- No two entries have the same key. -/
  pairwise : trailers.entries.Pairwise fun a b => ¬sameKey a.1 b.1
  /-- The keys stand as and in the order in which they are first listed, each with its values. -/
  entries_eq : trailers.entries = (firstKeys pairs).map fun key => (key, valuesUnder key pairs)
  /-- These are found under every spelling of the key, and nothing is found under other keys. -/
  get?_eq : ∀ key, trailers.get? key =
    if valuesUnder key pairs = [] then none else some (valuesUnder key pairs)
  /-- There are as many entries as different keys, -/
  size_eq : trailers.size = (pairs.map fun pair => foldKey pair.1).toFinset.card
  /-- and as many values as pairs. -/
  length_values : (trailers.entries.map fun entry => entry.2.length).sum = pairs.length

theorem valuesUnder_concat (key : String) (pairs : List (String × String))
    (pair : String × String) :
    valuesUnder key (pairs ++ [pair]) =
      if sameKey pair.1 key then valuesUnder key pairs ++ [pair.2] else valuesUnder key pairs := by
  rw [valuesUnder, List.filter_append, List.map_append]
  by_cases h : sameKey pair.1 key <;> simp [h, valuesUnder]

/-- `eraseDupsBy` goes through a list with the elements `seen` that it has kept so far. -/
theorem eraseDupsBy_loop_concat {α : Type} (r : α → α → Bool) (l seen : List α) (a : α) :
    List.eraseDupsBy.loop r (l ++ [a]) seen =
      if (List.eraseDupsBy.loop r l seen).any (r a) then List.eraseDupsBy.loop r l seen
      else List.eraseDupsBy.loop r l seen ++ [a] := by
  induction l generalizing seen with
  | nil =>
    simp only [List.nil_append, List.eraseDupsBy.loop, List.any_reverse]
    cases seen.any (r a) <;> simp
  | cons b rest ih =>
    simp only [List.cons_append, List.eraseDupsBy.loop]
    by_cases hseen : seen.any (r b) = true
    · simp only [hseen, ih seen]
    · simp only [hseen, ih (b :: seen)]

theorem firstKeys_concat (pairs : List (String × String)) (pair : String × String) :
    firstKeys (pairs ++ [pair]) =
      if (firstKeys pairs).any (sameKey pair.1) then firstKeys pairs
      else firstKeys pairs ++ [pair.1] := by
  rw [firstKeys, List.map_append]
  exact eraseDupsBy_loop_concat sameKey (pairs.map (·.1)) [] pair.1

theorem ofList_concat (pairs : List (String × String)) (pair : String × String) :
    ofList (pairs ++ [pair]) = (ofList pairs).add pair.1 pair.2 := by
  rw [ofList, List.foldl_append]
  rfl

/-! ## Where a value is added -/

section
variable {key : String} {entries : List (String × List String)}

theorem addEntry_of_new (h : ∀ entry ∈ entries, ¬sameKey entry.1 key) (value : String) :
    addEntry key value entries = entries ++ [(key, [value])] := by
  induction entries with
  | nil => rfl
  | cons entry rest ih =>
    have hentry : ¬sameKey entry.1 key := h entry List.mem_cons_self
    have hrest := ih fun other hother => h other (List.mem_cons_of_mem _ hother)
    rw [addEntry, if_neg hentry, hrest]
    rfl

/-- Only one entry can have the key, so it does not matter that the first one is taken. -/
theorem addEntry_of_known (hpairwise : entries.Pairwise fun a b => ¬sameKey a.1 b.1)
    (h : ∃ entry ∈ entries, sameKey entry.1 key) (value : String) :
    addEntry key value entries = entries.map fun entry =>
      (entry.1, if sameKey key entry.1 then entry.2 ++ [value] else entry.2) := by
  induction entries with
  | nil => simp at h
  | cons entry rest ih =>
    obtain ⟨hfirst, hrest⟩ := List.pairwise_cons.1 hpairwise
    rw [addEntry, List.map_cons, sameKey_comm key]
    by_cases hentry : sameKey entry.1 key
    · have hkept : ∀ other ∈ rest, ¬sameKey key other.1 := by
        intro other hother hsame
        have hfold := (sameKey_iff.1 hentry).trans (sameKey_iff.1 hsame)
        exact hfirst other hother (sameKey_iff.2 hfold)
      have hrest' : rest = rest.map fun other =>
          (other.1, if sameKey key other.1 then other.2 ++ [value] else other.2) := by
        conv => lhs; rw [← List.map_id rest]
        refine List.map_congr_left fun other hother => ?_
        rw [if_neg (hkept other hother)]
        rfl
      rw [if_pos hentry, if_pos hentry, ← hrest']
    · obtain ⟨other, hother, hsame⟩ := h
      rcases List.mem_cons.1 hother with rfl | hother
      · exact absurd hsame hentry
      · rw [if_neg hentry, if_neg hentry, ih hrest ⟨other, hother, hsame⟩]

end

/-! ## The entries of a list -/

theorem IsGrouped.pairwise {trailers : Trailers} (h : trailers.IsGrouped) :
    trailers.entries.Pairwise fun a b => ¬sameKey a.1 b.1 := by
  have hkeys : trailers.entries.Pairwise fun a b => foldKey a.1 ≠ foldKey b.1 :=
    List.pairwise_map.1 h
  exact hkeys.imp fun hne hsame => hne (sameKey_iff.1 hsame)

theorem valuesUnder_eq_nil {key : String} {pairs : List (String × String)}
    (h : ¬(firstKeys pairs).any (sameKey key)) : valuesUnder key pairs = [] := by
  induction pairs using List.reverseRecOn with
  | nil => rfl
  | append_singleton pairs pair ih =>
    rw [firstKeys_concat] at h
    by_cases hknown : (firstKeys pairs).any (sameKey pair.1)
    · rw [if_pos hknown] at h
      have hpair : ¬sameKey pair.1 key := by
        intro hsame
        obtain ⟨first, hfirst, hsame'⟩ := List.any_eq_true.1 hknown
        have hfold := (sameKey_iff.1 hsame).symm.trans (sameKey_iff.1 hsame')
        exact h (List.any_eq_true.2 ⟨first, hfirst, sameKey_iff.2 hfold⟩)
      rw [valuesUnder_concat, if_neg hpair, ih h]
    · rw [if_neg hknown, List.any_append, Bool.or_eq_true, not_or] at h
      have hpair : ¬sameKey pair.1 key := by
        rw [sameKey_comm]
        simpa using h.2
      rw [valuesUnder_concat, if_neg hpair, ih h.1]

theorem entries_ofList (pairs : List (String × String)) :
    (ofList pairs).entries = (firstKeys pairs).map fun key => (key, valuesUnder key pairs) := by
  induction pairs using List.reverseRecOn with
  | nil => rfl
  | append_singleton pairs pair ih =>
    obtain ⟨key, value⟩ := pair
    have hadd : (ofList (pairs ++ [(key, value)])).entries =
        addEntry key value (ofList pairs).entries := by
      rw [ofList_concat]
      rfl
    rw [hadd, firstKeys_concat]
    by_cases hknown : (firstKeys pairs).any (sameKey key)
    · have hmem : ∃ entry ∈ (ofList pairs).entries, sameKey entry.1 key := by
        obtain ⟨first, hfirst, hsame⟩ := List.any_eq_true.1 hknown
        rw [ih]
        exact ⟨_, List.mem_map_of_mem hfirst, by rw [sameKey_comm]; exact hsame⟩
      rw [if_pos hknown, addEntry_of_known (isGrouped_ofList pairs).pairwise hmem, ih, List.map_map]
      refine List.map_congr_left fun other _ => ?_
      rw [valuesUnder_concat]
      rfl
    · have hne : ∀ first ∈ firstKeys pairs, ¬sameKey key first := fun first hfirst hsame =>
        hknown (List.any_eq_true.2 ⟨first, hfirst, hsame⟩)
      have hnew : ∀ entry ∈ (ofList pairs).entries, ¬sameKey entry.1 key := by
        rw [ih]
        intro entry hentry
        obtain ⟨first, hfirst, rfl⟩ := List.mem_map.1 hentry
        rw [sameKey_comm]
        exact hne first hfirst
      have hkept : (firstKeys pairs).map (fun first => (first, valuesUnder first pairs)) =
          (firstKeys pairs).map fun first => (first, valuesUnder first (pairs ++ [(key, value)])) :=
        List.map_congr_left fun first hfirst => by
          rw [valuesUnder_concat, if_neg (hne first hfirst)]
      have hown : valuesUnder key (pairs ++ [(key, value)]) = [value] := by
        rw [valuesUnder_concat, if_pos (sameKey_iff.2 rfl), valuesUnder_eq_nil hknown]
        rfl
      rw [if_neg hknown, addEntry_of_new hnew, ih, List.map_append, hkept, List.map_singleton, hown]

/-! ## What is found -/

theorem getD_found (values : List String) :
    (if values = [] then none else some values).getD [] = values := by
  split
  · rename_i hnil
    exact hnil.symm
  · rfl

theorem get?_ofList (pairs : List (String × String)) (key : String) :
    (ofList pairs).get? key =
      if valuesUnder key pairs = [] then none else some (valuesUnder key pairs) := by
  induction pairs using List.reverseRecOn with
  | nil => rfl
  | append_singleton pairs pair ih =>
    rw [ofList_concat, valuesUnder_concat]
    by_cases hsame : sameKey pair.1 key
    · have hne : valuesUnder key pairs ++ [pair.2] ≠ [] := by simp
      rw [if_pos hsame, if_neg hne, ← get?_congr hsame, get?_add_self, get?_congr hsame, ih,
        getD_found]
    · rw [if_neg hsame, get?_add_of_not_sameKey hsame, ih]

theorem getD_get?_ofList (pairs : List (String × String)) (key : String) :
    ((ofList pairs).get? key).getD [] = valuesUnder key pairs := by
  rw [get?_ofList, getD_found]

/-! ## How many there are -/

theorem mem_keys_ofList {pairs : List (String × String)} {folded : List Char} :
    folded ∈ (ofList pairs).keys ↔ folded ∈ pairs.map fun pair => foldKey pair.1 := by
  induction pairs using List.reverseRecOn with
  | nil => exact Iff.rfl
  | append_singleton pairs pair ih =>
    rw [ofList_concat, keys_add, List.map_append, List.mem_append, ← ih, List.map_singleton,
      List.mem_singleton]
    split
    · rename_i hknown
      constructor
      · exact .inl
      · intro h
        rcases h with h | rfl
        · exact h
        · exact hknown
    · rw [List.mem_append, List.mem_singleton]

theorem size_ofList (pairs : List (String × String)) :
    (ofList pairs).size = (pairs.map fun pair => foldKey pair.1).toFinset.card := by
  have hkeys : (ofList pairs).keys.toFinset = (pairs.map fun pair => foldKey pair.1).toFinset := by
    ext folded
    rw [List.mem_toFinset, List.mem_toFinset, mem_keys_ofList]
  calc (ofList pairs).size
    _ = (ofList pairs).keys.length := (List.length_map _).symm
    _ = (ofList pairs).keys.toFinset.card :=
      (List.toFinset_card_of_nodup (isGrouped_ofList pairs)).symm
    _ = (pairs.map fun pair => foldKey pair.1).toFinset.card := by rw [hkeys]

theorem length_values_ofList (pairs : List (String × String)) :
    ((ofList pairs).entries.map fun entry => entry.2.length).sum = pairs.length := by
  have htotal := @total_ofList (fun _ _ => 1) (fun _ _ _ _ => rfl) pairs
  simpa [total] using htotal

/-- **Grouping.** Keys are the same if and only if they differ at most in the case of letters of
ASCII. Whatever values are added one by one under whatever keys, the trailers hold all of them, each
once and in order, under the first spelling of its key. -/
theorem groups_ofList (pairs : List (String × String)) :
    (∀ a b, sameKey a b ↔ List.Forall₂ SameLetter a.toList b.toList) ∧
      (ofList pairs).Groups pairs := by
  refine ⟨fun a b => sameKey_iff_forall₂, ?_⟩
  exact {
    pairwise := (isGrouped_ofList pairs).pairwise
    entries_eq := entries_ofList pairs
    get?_eq := get?_ofList pairs
    size_eq := size_ofList pairs
    length_values := length_values_ofList pairs }

/-- Two spellings of one key, of which the first stays. -/
example : ofList [("Fixes", "1"), ("See", "b"), ("fixeS", "2")] =
    ⟨[("Fixes", ["1", "2"]), ("See", ["b"])]⟩ := by decide

end GitReadout.Log.Trailers
