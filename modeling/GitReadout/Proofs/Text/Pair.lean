import GitReadout.Text.Split

/-!
# Cutting at a pair

A text is cut at the first or at the last place where one character stands directly before another.

* `hasPair_iff`: whether there is such a place at all.
* `cutAtPair?_append`: the first place, when the pair does not stand in what comes before.
* `cutAtPair?_eq_some_iff`: the cut is at the first place.
* `length_le_of_first_pair`: no other place has less before it.
* `cutAtLastPair?_append`: the last place, when what comes after does not hold the first character.
-/

set_option autoImplicit false

namespace GitReadout.Text

variable {a b : Char}

theorem hasPair_iff {s : List Char} : hasPair a b s ↔ [a, b] <:+: s := by
  induction s with
  | nil => simp [hasPair]
  | cons x rest ih =>
    cases rest with
    | nil => simp [hasPair, List.infix_cons_iff]
    | cons y rest =>
      rw [List.infix_cons_iff, ← ih]
      simp [hasPair, List.cons_prefix_cons]

theorem scanToPair?_append (hab : a ≠ b) {before : List Char} (h : ¬[a, b] <:+: before)
    (seen after : List Char) :
    scanToPair? a b seen (before ++ a :: b :: after) = some (seen.reverse ++ before, after) := by
  induction before generalizing seen with
  | nil => simp [scanToPair?]
  | cons x rest ih =>
    have ih := ih (fun hrest => h (List.infix_cons hrest)) (x :: seen)
    cases rest with
    | nil =>
      -- the pair cannot begin at the last character before it, since `a` follows and not `b`
      have hx : ¬(x = a ∧ a = b) := fun hx => hab hx.2
      rw [List.cons_append, List.nil_append, scanToPair?, if_neg hx]
      simpa using ih
    | cons y rest =>
      have hx : ¬(x = a ∧ y = b) := by
        rintro ⟨rfl, rfl⟩
        exact h (List.prefix_append [x, y] rest).isInfix
      rw [List.cons_append, List.cons_append, scanToPair?, if_neg hx]
      simpa using ih

theorem cutAtPair?_append (hab : a ≠ b) {before : List Char} (h : ¬[a, b] <:+: before)
    (after : List Char) : cutAtPair? a b (before ++ a :: b :: after) = some (before, after) := by
  rw [cutAtPair?, scanToPair?_append hab h]
  rfl

theorem exists_first_pair {s : List Char} (h : [a, b] <:+: s) :
    ∃ before after, s = before ++ a :: b :: after ∧ ¬[a, b] <:+: before := by
  induction s with
  | nil => simp at h
  | cons x rest ih =>
    by_cases hfirst : [a, b] <+: x :: rest
    · obtain ⟨after, hafter⟩ := hfirst
      exact ⟨[], after, hafter.symm, by simp⟩
    · have hrest : [a, b] <:+: rest := (List.infix_cons_iff.1 h).resolve_left hfirst
      obtain ⟨before, after, rfl, hbefore⟩ := ih hrest
      refine ⟨x :: before, after, rfl, fun hx => ?_⟩
      -- a pair at `x` would have been a pair at the beginning
      rcases List.infix_cons_iff.1 hx with hx | hx
      · exact hfirst (hx.trans (List.prefix_append (x :: before) (a :: b :: after)))
      · exact hbefore hx

theorem cutAtPair?_eq_some_iff (hab : a ≠ b) {s before after : List Char} :
    cutAtPair? a b s = some (before, after) ↔
      s = before ++ a :: b :: after ∧ ¬[a, b] <:+: before := by
  constructor
  · intro h
    have hs := cutAtPair?_eq_some h
    have hpair : [a, b] <:+: s := ⟨before, after, by simp [hs]⟩
    obtain ⟨front, back, rfl, hfront⟩ := exists_first_pair hpair
    rw [cutAtPair?_append hab hfront] at h
    cases h
    exact ⟨rfl, hfront⟩
  · rintro ⟨rfl, hbefore⟩
    exact cutAtPair?_append hab hbefore after

theorem length_le_of_first_pair (hab : a ≠ b) {before after front back : List Char}
    (h : ¬[a, b] <:+: before) (hs : before ++ a :: b :: after = front ++ a :: b :: back) :
    before.length ≤ front.length := by
  rcases List.append_eq_append_iff.1 hs with ⟨more, rfl, -⟩ | ⟨more, rfl, hmore⟩
  · simp
  · -- `front` is shorter by `more`, at which the pair would begin
    match more, hmore with
    | [], _ => simp
    | [x], hmore =>
      simp only [List.cons_append, List.nil_append, List.cons.injEq] at hmore
      exact absurd hmore.2.1.symm hab
    | x :: y :: more, hmore =>
      simp only [List.cons_append, List.cons.injEq] at hmore
      obtain ⟨rfl, rfl, -⟩ := hmore
      exact absurd ⟨front, more, by simp⟩ h

theorem cutAtLastPair?_append (hab : a ≠ b) {after : List Char} (h : a ∉ after)
    (before : List Char) :
    cutAtLastPair? a b (before ++ a :: b :: after) = some (before, after) := by
  have hreverse : (before ++ a :: b :: after).reverse =
      after.reverse ++ b :: a :: before.reverse := by simp
  have hpair : ¬[b, a] <:+: after.reverse := fun hpair =>
    h (List.mem_reverse.1 (hpair.subset (by simp)))
  rw [cutAtLastPair?, hreverse, cutAtPair?_append hab.symm hpair]
  simp

theorem cutAtLastPair?_eq_some {s before after : List Char}
    (h : cutAtLastPair? a b s = some (before, after)) : s = before ++ a :: b :: after := by
  obtain ⟨⟨back, front⟩, hcut, hparts⟩ := Option.map_eq_some_iff.1 h
  cases hparts
  rw [← List.reverse_reverse s, cutAtPair?_eq_some hcut]
  simp

end GitReadout.Text
