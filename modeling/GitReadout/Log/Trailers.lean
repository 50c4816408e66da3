/-!
# Trailers

The trailers of a commit message are values under keys. Keys that differ only in the case of ASCII
letters are one key; it is written as it was first seen, and its values stand in the order in which
they were met.

* `get?_add_self`: a value is found under its key after those that were there.
* `get?_add_of_not_sameKey`: other keys keep their values.
-/

set_option autoImplicit false

namespace GitReadout.Log

/-- Values under keys, in the order in which the keys were first seen. -/
structure Trailers where
  entries : List (String × List String) := []
deriving DecidableEq

namespace Trailers

/-- A key without the case of its ASCII letters. -/
def foldKey (key : String) : List Char :=
  key.toList.map Char.toLower

/-- Whether two keys differ at most in the case of ASCII letters. -/
def sameKey (a b : String) : Bool :=
  foldKey a = foldKey b

/-- Adds a value to the first entry of its key, or a new entry at the end. -/
def addEntry (key value : String) : List (String × List String) → List (String × List String)
  | [] => [(key, [value])]
  | (known, values) :: rest =>
    if sameKey known key then (known, values ++ [value]) :: rest
    else (known, values) :: addEntry key value rest

/-- Adds a value under a key. -/
def add (trailers : Trailers) (key value : String) : Trailers :=
  ⟨addEntry key value trailers.entries⟩

/-- The values under a key. -/
def get? (trailers : Trailers) (key : String) : Option (List String) :=
  (trailers.entries.find? fun entry => sameKey entry.1 key).map (·.2)

def size (trailers : Trailers) : Nat :=
  trailers.entries.length

def isEmpty (trailers : Trailers) : Bool :=
  trailers.entries.isEmpty

/-- The trailers that a list of keys and values gives. -/
def ofList (pairs : List (String × String)) : Trailers :=
  pairs.foldl (fun trailers pair => trailers.add pair.1 pair.2) {}

theorem sameKey_iff {a b : String} : sameKey a b ↔ foldKey a = foldKey b := by
  simp [sameKey]

theorem get?_add_self (trailers : Trailers) (key value : String) :
    (trailers.add key value).get? key = some ((trailers.get? key).getD [] ++ [value]) := by
  obtain ⟨entries⟩ := trailers
  simp only [add, get?]
  induction entries with
  | nil => simp [addEntry, sameKey]
  | cons entry rest ih =>
    unfold addEntry
    by_cases h : sameKey entry.1 key
    · simp [h]
    · simpa [h] using ih

theorem get?_add_of_not_sameKey {other key : String} (h : ¬sameKey key other)
    (trailers : Trailers) (value : String) :
    (trailers.add key value).get? other = trailers.get? other := by
  obtain ⟨entries⟩ := trailers
  simp only [add, get?]
  induction entries with
  | nil => simp [addEntry, h]
  | cons entry rest ih =>
    unfold addEntry
    by_cases hk : sameKey entry.1 key
    · have ho : ¬sameKey entry.1 other := fun ho =>
        h (sameKey_iff.2 ((sameKey_iff.1 hk).symm.trans (sameKey_iff.1 ho)))
      simp [hk, ho]
    · by_cases ho : sameKey entry.1 other
      · simp [hk, ho]
      · simpa [hk, ho] using ih

end Trailers

end GitReadout.Log
