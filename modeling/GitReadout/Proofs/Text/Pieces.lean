import GitReadout.Proofs.Text.Joined

/-!
# Pieces between separators

Where the pieces of a text stand that is cut at a separator: each begins at the beginning or behind
a separator, and ends at the end or in front of one.

* `mem_splitOn_iff`: exactly the texts that stand so are pieces.
* `exists_getLast?_splitOn`: the last piece stands at the end.
* `records_append`: the records of a stream that is continued after a terminator.
-/

set_option autoImplicit false

namespace GitReadout.Text

variable {sep : Char} {s : List Char}

theorem splitOn_append_cons (before after : List Char) :
    (before ++ sep :: after).splitOn sep = before.splitOn sep ++ after.splitOn sep := by
  simp only [List.splitOn_eq_splitOnP]
  exact List.splitOnP_append_cons before after (by simp)

theorem exists_of_mem_splitOn {piece : List Char} (h : piece ∈ s.splitOn sep) :
    ∃ before after, s = before ++ piece ++ after ∧ (before = [] ∨ before.getLast? = some sep) ∧
      (after = [] ∨ after.head? = some sep) := by
  -- on the length, since the induction goes on behind the first separator
  induction hn : s.length using Nat.strongRecOn generalizing s with
  | ind n ih =>
    by_cases hsep : sep ∈ s
    · obtain ⟨first, rest, rfl, hfirst⟩ := List.eq_append_cons_of_mem hsep
      rw [splitOn_append_cons, List.splitOn_eq_singleton hfirst, List.singleton_append,
        List.mem_cons] at h
      rcases h with rfl | h
      · exact ⟨[], sep :: rest, rfl, .inl rfl, .inr rfl⟩
      · have hlt : rest.length < n := by
          rw [← hn, List.length_append, List.length_cons]
          omega
        obtain ⟨before, after, rfl, hbefore, hafter⟩ := ih rest.length hlt h rfl
        refine ⟨first ++ sep :: before, after, by simp, .inr ?_, hafter⟩
        rcases hbefore with rfl | hbefore
        · simp
        · simp [List.getLast?_append, List.getLast?_cons, hbefore]
    · rw [List.splitOn_eq_singleton hsep, List.mem_singleton] at h
      exact ⟨[], [], by simp [h], .inl rfl, .inl rfl⟩

theorem mem_splitOn_iff {piece : List Char} :
    piece ∈ s.splitOn sep ↔ sep ∉ piece ∧ ∃ before after, s = before ++ piece ++ after ∧
      (before = [] ∨ before.getLast? = some sep) ∧ (after = [] ∨ after.head? = some sep) := by
  refine ⟨fun h => ⟨not_mem_of_mem_splitOn h, exists_of_mem_splitOn h⟩, ?_⟩
  rintro ⟨hpiece, before, after, rfl, hbefore, hafter⟩
  have htail : piece ∈ (piece ++ after).splitOn sep := by
    rcases hafter with rfl | hafter
    · simp [List.splitOn_eq_singleton hpiece]
    · obtain ⟨rest, rfl⟩ := List.head?_eq_some_iff.1 hafter
      simp [splitOn_append_cons, List.splitOn_eq_singleton hpiece]
  rcases hbefore with rfl | hbefore
  · exact htail
  · obtain ⟨front, rfl⟩ := List.getLast?_eq_some_iff.1 hbefore
    have hcut : front ++ [sep] ++ piece ++ after = front ++ sep :: (piece ++ after) := by simp
    rw [hcut, splitOn_append_cons]
    exact List.mem_append_right _ htail

theorem exists_getLast?_splitOn (sep : Char) (s : List Char) :
    ∃ front last, s = front ++ last ∧ (front = [] ∨ front.getLast? = some sep) ∧
      (s.splitOn sep).getLast? = some last := by
  by_cases hsep : sep ∈ s
  · obtain ⟨rest, front, hs, hrest⟩ := List.eq_append_cons_of_mem (List.mem_reverse.2 hsep)
    have hcut : s = front.reverse ++ sep :: rest.reverse := by
      rw [← List.reverse_reverse s, hs]
      simp
    have hlast : sep ∉ rest.reverse := fun h => hrest (List.mem_reverse.1 h)
    refine ⟨front.reverse ++ [sep], rest.reverse, by simp [hcut], .inr (by simp), ?_⟩
    rw [hcut, splitOn_append_cons, List.splitOn_eq_singleton hlast, List.getLast?_concat]
  · exact ⟨[], s, rfl, .inl rfl, by rw [List.splitOn_eq_singleton hsep, List.getLast?_singleton]⟩

/-! ## Records of a continued stream -/

variable {t : Char}

theorem dropTerminator_eq_nil_iff : dropTerminator t s = [] ↔ s = [] ∨ s = [t] := by
  unfold dropTerminator
  split
  · rename_i h
    obtain ⟨front, rfl⟩ := List.getLast?_eq_some_iff.1 h
    simp
  · rename_i h
    refine ⟨.inl, fun hs => hs.resolve_right fun he => h ?_⟩
    rw [he, List.getLast?_singleton]

theorem records_eq_splitOn (h : dropTerminator t s ≠ []) :
    records t s = (dropTerminator t s).splitOn t := by
  unfold records
  split
  · rename_i hnil
    exact absurd hnil h
  · rfl

theorem dropTerminator_append (front : List Char) {rest : List Char} (h : rest ≠ []) :
    dropTerminator t (front ++ rest) = front ++ dropTerminator t rest := by
  have hlast : (front ++ rest).getLast? = rest.getLast? := by
    rw [List.getLast?_append, Option.or_of_isSome (List.getLast?_isSome.2 h)]
  unfold dropTerminator
  rw [hlast]
  split
  · exact List.dropLast_append_of_ne_nil h
  · rfl

theorem records_append {front rest : List Char} (hfront : front ≠ []) (hrest : rest ≠ [t]) :
    records t (front ++ [t] ++ rest) = records t (front ++ [t]) ++ records t rest := by
  have hended : records t (front ++ [t]) = front.splitOn t := by
    rw [records_eq_splitOn (by simpa using hfront), dropTerminator_concat]
  by_cases hnil : rest = []
  · simp [hnil]
  · have hbody : dropTerminator t rest ≠ [] := fun h =>
      (dropTerminator_eq_nil_iff.1 h).elim hnil hrest
    have hdrop : dropTerminator t (front ++ [t] ++ rest) = front ++ t :: dropTerminator t rest := by
      rw [dropTerminator_append _ hnil]
      simp
    have hall : dropTerminator t (front ++ [t] ++ rest) ≠ [] := by
      rw [hdrop]
      simp
    rw [hended, records_eq_splitOn hbody, records_eq_splitOn hall, hdrop, splitOn_append_cons]

end GitReadout.Text
