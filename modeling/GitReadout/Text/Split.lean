/-!
# Cutting text at separators

Texts are lists of characters. A stream of records ends each record with a terminator, of which
the last may be missing (`records`); a line of fields is cut at its first separators only, so its
last field keeps the separators it holds (`fields`); a block is cut into lines (`lines`).

* `cut?_eq_some_iff`: `cut?` cuts at the first separator.
* `cutAtPair?_eq_some`: what `cutAtPair?` returns gives back the text with the pair between.
-/

set_option autoImplicit false

namespace GitReadout.Text

/-! ## Records -/

/-- `s` without one final `t`; `s` itself when it does not end in `t`. -/
def dropTerminator (t : Char) (s : List Char) : List Char :=
  if s.getLast? = some t then s.dropLast else s

/-- The records of a stream whose records end with `t`, the last one possibly not. -/
def records (t : Char) (s : List Char) : List (List Char) :=
  match dropTerminator t s with
  | [] => []
  | body => body.splitOn t

@[simp] theorem dropTerminator_concat (t : Char) (s : List Char) :
    dropTerminator t (s ++ [t]) = s := by
  simp [dropTerminator]

theorem dropTerminator_of_getLast?_ne {t : Char} {s : List Char} (h : s.getLast? ≠ some t) :
    dropTerminator t s = s := by
  simp [dropTerminator, h]

@[simp] theorem records_nil (t : Char) : records t [] = [] := rfl

/-! ## The first separator -/

/-- What stands before and after the first `sep`; `none` when there is none. -/
def cut? (sep : Char) (s : List Char) : Option (List Char × List Char) :=
  match s.dropWhile (· != sep) with
  | [] => none
  | _ :: after => some (s.takeWhile (· != sep), after)

/-- At most `n` fields, cut at the first separators; the last one keeps those that follow. -/
def fields (sep : Char) : Nat → List Char → List (List Char)
  | 0, _ => []
  | 1, s => [s]
  | n + 2, s =>
    match cut? sep s with
    | none => [s]
    | some (before, after) => before :: fields sep (n + 1) after

theorem dropWhile_ne_eq_nil {sep : Char} {s : List Char} (h : sep ∉ s) :
    s.dropWhile (· != sep) = [] := by
  induction s with
  | nil => rfl
  | cons c r ih =>
    simp only [List.mem_cons, not_or] at h
    rw [List.dropWhile_cons_of_pos (by simpa using fun e : c = sep => h.1 e.symm), ih h.2]

theorem cut?_of_not_mem {sep : Char} {s : List Char} (h : sep ∉ s) : cut? sep s = none := by
  simp [cut?, dropWhile_ne_eq_nil h]

theorem cut?_append {sep : Char} {before : List Char} (h : sep ∉ before) (after : List Char) :
    cut? sep (before ++ sep :: after) = some (before, after) := by
  have hd : ∀ c ∈ before, (c != sep) = true := fun c hc => by
    simpa using fun e : c = sep => h (e ▸ hc)
  simp [cut?, List.dropWhile_append_of_pos hd, List.takeWhile_append_of_pos hd]

theorem cut?_eq_some_iff {sep : Char} {s before after : List Char} :
    cut? sep s = some (before, after) ↔ sep ∉ before ∧ s = before ++ sep :: after := by
  constructor
  · intro h
    by_cases hm : sep ∈ s
    · obtain ⟨a, b, hs, ha⟩ := List.eq_append_cons_of_mem hm
      rw [hs, cut?_append ha, Option.some.injEq, Prod.mk.injEq] at h
      exact ⟨h.1 ▸ ha, by rw [hs, h.1, h.2]⟩
    · rw [cut?_of_not_mem hm] at h
      cases h
  · rintro ⟨h, rfl⟩
    exact cut?_append h after

/-! ## Separators of two characters -/

/-- Reads on to the first `a` that `b` follows, with what was read before in reverse. -/
def scanToPair? (a b : Char) : List Char → List Char → Option (List Char × List Char)
  | seen, x :: y :: rest =>
    if x = a ∧ y = b then some (seen.reverse, rest) else scanToPair? a b (x :: seen) (y :: rest)
  | _, _ => none

/-- What stands before and after the first `a` that `b` follows. -/
def cutAtPair? (a b : Char) (s : List Char) : Option (List Char × List Char) :=
  scanToPair? a b [] s

/-- What stands before and after the last `a` that `b` follows. -/
def cutAtLastPair? (a b : Char) (s : List Char) : Option (List Char × List Char) :=
  (cutAtPair? b a s.reverse).map fun (after, before) => (before.reverse, after.reverse)

/-- Whether `a` stands directly before `b` somewhere. -/
def hasPair (a b : Char) (s : List Char) : Bool :=
  (s.zip s.tail).contains (a, b)

theorem scanToPair?_eq_some {a b : Char} {s seen before after : List Char}
    (h : scanToPair? a b seen s = some (before, after)) :
    seen.reverse ++ s = before ++ a :: b :: after := by
  induction s generalizing seen with
  | nil => simp [scanToPair?] at h
  | cons x r ih =>
    cases r with
    | nil => simp [scanToPair?] at h
    | cons y rest =>
      rw [scanToPair?] at h
      split at h
      · rename_i hxy
        simp only [Option.some.injEq, Prod.mk.injEq] at h
        rw [h.1, h.2, hxy.1, hxy.2]
      · simpa using ih h

theorem cutAtPair?_eq_some {a b : Char} {s before after : List Char}
    (h : cutAtPair? a b s = some (before, after)) : s = before ++ a :: b :: after := by
  simpa using scanToPair?_eq_some h

/-! ## Entries and lines -/

/-- Puts one more character in front of entries that `, ` separates. -/
def consEntry (c : Char) : List (List Char) → List (List Char)
  | [] => [[c]]
  | entry :: entries =>
    match c, entry with
    | ',', ' ' :: entry => [] :: entry :: entries
    | c, entry => (c :: entry) :: entries

/-- The entries of a list that is written with `, ` between them. -/
def entries (s : List Char) : List (List Char) :=
  s.foldr consEntry [[]]

/-- The lines of a block. `\n` and `\r\n` end a line; a last line without an end keeps its `\r`. -/
def lines (s : List Char) : List (List Char) :=
  let pieces := s.splitOn '\n'
  pieces.dropLast.map (dropTerminator '\r') ++ pieces.getLast?.toList.filter (· ≠ [])

/-! ## The end of an answer -/

/-- `s` without the carriage returns and line feeds at its end. -/
def dropLineEnds (s : List Char) : List Char :=
  (s.reverse.dropWhile fun c => c == '\r' || c == '\n').reverse

end GitReadout.Text
