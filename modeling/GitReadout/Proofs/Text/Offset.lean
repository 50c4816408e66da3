import GitReadout.Text.Offset

/-!
# Where a text can be cut

A text can be cut at a byte offset if and only if the offset is in range and no character stretches
across it. In a text of ASCII every offset in range is such, and counts characters.

* `fromOffset?_eq_some_iff`: a cut parts the text, and the first part has the size of the offset.
* `isSome_fromOffset?_iff`: the offsets of cuts are the valid positions of the text.
* `cutAt?_of_ascii`: the two parts of a text of ASCII.
-/

set_option autoImplicit false

namespace GitReadout.Text

variable {s : List Char} {n : Nat}

theorem fromOffset?_eq_some_iff {rest : List Char} :
    fromOffset? n s = some rest ↔ ∃ before, s = before ++ rest ∧ byteSize before = n := by
  constructor
  · intro h
    fun_induction fromOffset? n s with
    | case1 s =>
      cases h
      exact ⟨[], rfl, rfl⟩
    | case2 n => cases h
    | case3 n c s hle ih =>
      obtain ⟨before, rfl, hsize⟩ := ih h
      exact ⟨c :: before, rfl, by rw [byteSize_cons, hsize]; omega⟩
    | case4 n c s hlt => cases h
  · rintro ⟨before, rfl, rfl⟩
    exact fromOffset?_append before rest

theorem utf8ByteSize_ofList (s : List Char) : (String.ofList s).utf8ByteSize = byteSize s := by
  induction s with
  | nil => rfl
  | cons c r ih =>
    rw [String.ofList_cons, String.utf8ByteSize_append, String.utf8ByteSize_singleton, ih,
      byteSize_cons]

theorem isSome_fromOffset?_iff :
    (fromOffset? n s).isSome ↔ (String.Pos.Raw.mk n).IsValid (String.ofList s) := by
  simp only [Option.isSome_iff_exists, fromOffset?_eq_some_iff, String.Pos.Raw.isValid_ofList,
    utf8ByteSize_ofList]
  constructor
  · rintro ⟨rest, before, rfl, rfl⟩
    exact ⟨before.length, by rw [List.take_left]⟩
  · rintro ⟨i, hi⟩
    exact ⟨s.drop i, s.take i, (List.take_append_drop i s).symm, hi.symm⟩

/-! ## ASCII -/

theorem byteSize_eq_length (h : ∀ c ∈ s, c.utf8Size = 1) : byteSize s = s.length := by
  induction s with
  | nil => rfl
  | cons c r ih =>
    obtain ⟨hc, hr⟩ := List.forall_mem_cons.1 h
    rw [byteSize_cons, hc, ih hr, List.length_cons, Nat.add_comm]

theorem cutAt?_of_ascii (h : ∀ c ∈ s, c.utf8Size = 1) (hn : n ≤ s.length) :
    cutAt? n s = some (s.take n, s.drop n) := by
  have hsize : byteSize (s.take n) = n := by
    rw [byteSize_eq_length fun c hc => h c (List.mem_of_mem_take hc), List.length_take,
      Nat.min_eq_left hn]
  have hcut := cutAt?_append (s.take n) (s.drop n)
  rwa [hsize, List.take_append_drop] at hcut

end GitReadout.Text
