import GitReadout.Text.Split
import Mathlib.Data.List.DropRight

/-!
# Joining what is cut

Each way of cutting a text has a way of joining that it undoes: fields with a separator between
them, records with a terminator after each of them or between them, entries with `, ` between them,
lines with a line feed.

* `fields_eq_iff`: the fields of a text are the one way to write it with separators between fields
  of which none but the last holds one.
* `records_eq_iff`: the records of a stream, said without cutting it: they have terminators between
  them in it, and the last may have one behind it. So the records of a joined stream are those that
  were joined (`records_joined`, `records_joined_concat`), and those of every stream join to it
  (`joined_records`).
* `entries_joined`, `lines_joined`, `lines_ended`: entries and lines come back as well.
* `dropLineEnds_append`, `dropLineEnds_append_cons`: what becomes of line ends at the end, and of
  what stands before some other character.
-/

set_option autoImplicit false

namespace GitReadout.Text

/-- Texts with `t` after each of them. -/
def ended (t : Char) (texts : List (List Char)) : List Char :=
  texts.flatMap (· ++ [t])

@[simp] theorem ended_nil (t : Char) : ended t [] = [] := rfl

@[simp] theorem ended_cons (t : Char) (s : List Char) (texts : List (List Char)) :
    ended t (s :: texts) = s ++ t :: ended t texts := by
  simp [ended]

theorem ended_eq_joined {t : Char} {texts : List (List Char)} (h : texts ≠ []) :
    ended t texts = [t].intercalate texts ++ [t] := by
  induction texts with
  | nil => exact absurd rfl h
  | cons s rest ih =>
    cases rest with
    | nil => simp
    | cons next rest => rw [ended_cons, ih (by simp)]; simp

theorem mem_joined {sep c : Char} {texts : List (List Char)} (h : c ∈ [sep].intercalate texts) :
    c = sep ∨ ∃ s ∈ texts, c ∈ s := by
  induction texts with
  | nil => simp at h
  | cons s rest ih =>
    cases rest with
    | nil => exact .inr ⟨s, by simp, by simpa using h⟩
    | cons next rest =>
      simp only [List.intercalate_cons_cons, List.append_assoc, List.mem_append,
        List.mem_singleton] at h
      rcases h with h | h | h
      · exact .inr ⟨s, by simp, h⟩
      · exact .inl h
      · rcases ih h with hc | ⟨x, hx, hc⟩
        · exact .inl hc
        · exact .inr ⟨x, List.mem_cons_of_mem _ hx, hc⟩

theorem mem_joined_of_mem {sep c : Char} {texts : List (List Char)} {s : List Char}
    (hs : s ∈ texts) (hc : c ∈ s) : c ∈ [sep].intercalate texts := by
  induction texts with
  | nil => cases hs
  | cons x rest ih =>
    cases rest with
    | nil => simpa [List.mem_singleton.1 hs] using hc
    | cons next rest =>
      rw [List.intercalate_cons_cons]
      rcases List.mem_cons.1 hs with rfl | hs
      · simp [hc]
      · simp [ih hs]

theorem joined_eq_append {sep : Char} {texts : List (List Char)} {last : List Char}
    (h : texts.getLast? = some last) : ∃ front, [sep].intercalate texts = front ++ last := by
  induction texts with
  | nil => cases h
  | cons s rest ih =>
    cases rest with
    | nil => exact ⟨[], by simpa using h⟩
    | cons next rest =>
      obtain ⟨front, hf⟩ := ih (by simpa using h)
      exact ⟨s ++ [sep] ++ front, by rw [List.intercalate_cons_cons, hf]; simp⟩

/-! ## Fields -/

theorem fields_eq_iff {sep : Char} {n : Nat} {s : List Char} {parts : List (List Char)}
    (hn : parts.length = n + 1) :
    fields sep (n + 1) s = parts ↔
      s = [sep].intercalate parts ∧ ∀ p ∈ parts.dropLast, sep ∉ p := by
  induction n generalizing s parts with
  | zero =>
    obtain ⟨p, rfl⟩ := List.length_eq_one_iff.1 hn
    simp [fields]
  | succ n ih =>
    obtain ⟨p, q, rest, rfl⟩ : ∃ p q rest, parts = p :: q :: rest := by
      match parts, hn with
      | p :: q :: rest, _ => exact ⟨p, q, rest, rfl⟩
    have hlen : (q :: rest).length = n + 1 := by simpa using hn
    rw [fields, List.intercalate_cons_cons]
    constructor
    · intro h
      split at h
      · simp at h
      · rename_i before after hcut
        simp only [List.cons.injEq] at h
        obtain ⟨rfl, h⟩ := h
        obtain ⟨hbefore, hs⟩ := cut?_eq_some_iff.1 hcut
        obtain ⟨rfl, hrest⟩ := (ih hlen).1 h
        refine ⟨by simpa using hs, fun x hx => ?_⟩
        rcases List.mem_cons.1 (by simpa using hx) with rfl | hx
        · exact hbefore
        · exact hrest x (by simpa using hx)
    · rintro ⟨hs, hparts⟩
      have hcut : cut? sep s = some (p, [sep].intercalate (q :: rest)) :=
        cut?_eq_some_iff.2 ⟨hparts p (by simp), by simpa using hs⟩
      have hrest := (ih (s := [sep].intercalate (q :: rest)) hlen).2
        ⟨rfl, fun x hx => hparts x (by simp at hx ⊢; exact .inr hx)⟩
      simp [hcut, hrest]

/-! ## Records -/

theorem not_mem_of_mem_splitOn {t : Char} {s x : List Char} (h : x ∈ s.splitOn t) : t ∉ x := by
  induction s generalizing x with
  | nil => simp at h; simp [h]
  | cons c rest ih =>
    rw [List.splitOn_cons_eq_if_modifyHead] at h
    obtain ⟨first, others, hsplit⟩ := List.exists_cons_of_ne_nil (List.splitOn_ne_nil t rest)
    rw [hsplit] at h ih
    split at h
    · rcases List.mem_cons.1 h with rfl | h
      · simp
      · exact ih h
    · rename_i hc
      rcases List.mem_cons.1 h with rfl | h
      · simp only [List.mem_cons, not_or]
        exact ⟨fun e => hc (by simp [e]), ih (by simp)⟩
      · exact ih (List.mem_cons_of_mem _ h)

section
variable {t : Char} {texts : List (List Char)}

theorem getLast?_joined_ne (ht : ∀ s ∈ texts, t ∉ s) (hlast : texts.getLast? ≠ some []) :
    ([t].intercalate texts).getLast? ≠ some t := by
  intro h
  cases hl : texts.getLast? with
  | none => simp [List.getLast?_eq_none_iff.1 hl] at h
  | some last =>
    have hne : last ≠ [] := fun e => hlast (e ▸ hl)
    obtain ⟨front, hf⟩ : ∃ front, [t].intercalate texts = front ++ last := joined_eq_append hl
    obtain ⟨c, hc⟩ := Option.isSome_iff_exists.1 (List.getLast?_isSome.2 hne)
    rw [hf, List.getLast?_append, hc, Option.some_or, Option.some.injEq] at h
    exact ht last (List.mem_of_getLast? hl) (h ▸ List.mem_of_getLast? hc)

theorem joined_ne_nil (hne : texts ≠ []) (hempty : texts ≠ [[]]) : [t].intercalate texts ≠ [] := by
  cases texts with
  | nil => exact absurd rfl hne
  | cons s rest =>
    cases rest with
    | nil => simpa using hempty
    | cons next rest => simp

theorem splitOn_joined_body (ht : ∀ s ∈ texts, t ∉ s) (hempty : texts ≠ [[]]) :
    (match [t].intercalate texts with
      | [] => []
      | body => body.splitOn t) = texts := by
  cases hne : texts with
  | nil => rfl
  | cons s rest =>
    have hbody := joined_ne_nil (t := t) (by simp [hne]) hempty
    rw [← hne]
    split
    · rename_i h
      exact absurd h hbody
    · exact List.splitOn_intercalate t ht (by simp [hne])

theorem joined_records_eq (t : Char) (s : List Char) :
    [t].intercalate (records t s) = dropTerminator t s := by
  unfold records
  split
  · rename_i h
    simp [h]
  · exact List.intercalate_splitOn t

theorem not_mem_of_mem_records {s x : List Char} (h : x ∈ records t s) : t ∉ x := by
  unfold records at h
  split at h
  · cases h
  · exact not_mem_of_mem_splitOn h

theorem records_ne_singleton_nil (t : Char) (s : List Char) : records t s ≠ [[]] := by
  intro h
  have hbody := joined_records_eq t s
  rw [h, List.intercalate_singleton] at hbody
  rw [records, ← hbody] at h
  cases h

theorem ended_eq_joined_concat (t : Char) (texts : List (List Char)) :
    ended t texts = [t].intercalate (texts ++ [[]]) := by
  induction texts with
  | nil => rfl
  | cons s rest ih =>
    rw [ended_cons, ih]
    cases rest <;> simp

/-- The last record is not empty if nothing stands behind it. -/
theorem getLast?_records_ne {s : List Char} (h : s.getLast? ≠ some t) :
    (records t s).getLast? ≠ some [] := by
  intro hlast
  obtain ⟨front, hfront⟩ := List.getLast?_eq_some_iff.1 hlast
  have hbody := joined_records_eq t s
  rw [dropTerminator_of_getLast?_ne h, hfront, ← ended_eq_joined_concat] at hbody
  by_cases hne : front = []
  · exact records_ne_singleton_nil t s (by rw [hfront, hne, List.nil_append])
  · rw [← hbody, ended_eq_joined hne, List.getLast?_concat] at h
    exact h rfl

theorem records_eq_iff {s : List Char} :
    records t s = texts ↔ (∀ x ∈ texts, t ∉ x) ∧
      (s = [t].intercalate texts ++ [t] ∧ texts ≠ [[]] ∨
        s = [t].intercalate texts ∧ texts.getLast? ≠ some []) := by
  constructor
  · rintro rfl
    refine ⟨fun x => not_mem_of_mem_records, ?_⟩
    rw [joined_records_eq]
    by_cases hlast : s.getLast? = some t
    · obtain ⟨front, rfl⟩ := List.getLast?_eq_some_iff.1 hlast
      exact .inl ⟨by rw [dropTerminator_concat], records_ne_singleton_nil _ _⟩
    · exact .inr ⟨(dropTerminator_of_getLast?_ne hlast).symm, getLast?_records_ne hlast⟩
  · rintro ⟨ht, ⟨rfl, hempty⟩ | ⟨rfl, hlast⟩⟩
    · rw [records, dropTerminator_concat]
      exact splitOn_joined_body ht hempty
    · rw [records, dropTerminator_of_getLast?_ne (getLast?_joined_ne ht hlast)]
      exact splitOn_joined_body ht fun h => hlast (by rw [h]; rfl)

theorem records_joined (ht : ∀ s ∈ texts, t ∉ s) (hlast : texts.getLast? ≠ some []) :
    records t ([t].intercalate texts) = texts :=
  records_eq_iff.2 ⟨ht, .inr ⟨rfl, hlast⟩⟩

theorem records_joined_concat (ht : ∀ s ∈ texts, t ∉ s) (hlast : texts.getLast? ≠ some []) :
    records t ([t].intercalate texts ++ [t]) = texts :=
  records_eq_iff.2 ⟨ht, .inl ⟨rfl, fun h => hlast (by rw [h]; rfl)⟩⟩

end

theorem joined_records (t : Char) (s : List Char) :
    s = [t].intercalate (records t s) ∨ s = [t].intercalate (records t s) ++ [t] := by
  obtain ⟨-, ⟨hs, -⟩ | ⟨hs, -⟩⟩ := records_eq_iff.1 (rfl : records t s = records t s)
  · exact .inr hs
  · exact .inl hs

/-! ## Entries -/

theorem foldr_consEntry {s : List Char} (h : ¬[',', ' '] <:+: s) (rest : List (List Char)) :
    s.foldr consEntry ([] :: rest) = s :: rest := by
  induction s with
  | nil => rfl
  | cons c s ih =>
    rw [List.foldr_cons, ih fun hs => h (List.infix_cons hs)]
    simp only [consEntry]
    split
    · exact absurd (List.prefix_append [',', ' '] _).isInfix h
    · rfl

theorem entries_joined {texts : List (List Char)} (hne : texts ≠ [])
    (h : ∀ s ∈ texts, ¬[',', ' '] <:+: s) : entries ([',', ' '].intercalate texts) = texts := by
  induction texts with
  | nil => exact absurd rfl hne
  | cons s rest ih =>
    cases rest with
    | nil =>
      rw [List.intercalate_singleton]
      exact foldr_consEntry (h s (by simp)) []
    | cons next rest =>
      have ih := ih (by simp) fun x hx => h x (List.mem_cons_of_mem _ hx)
      unfold entries at ih ⊢
      rw [List.intercalate_cons_cons, List.append_assoc, List.foldr_append, List.foldr_append, ih]
      exact foldr_consEntry (h s (by simp)) (next :: rest)

/-! ## Lines -/

theorem not_mem_of_mem_lines {s line : List Char} (h : line ∈ lines s) : '\n' ∉ line := by
  simp only [lines, List.mem_append, List.mem_map, List.mem_filter, Option.mem_toList] at h
  rcases h with ⟨piece, hpiece, rfl⟩ | ⟨hlast, -⟩
  · have hfeed := not_mem_of_mem_splitOn (List.dropLast_subset _ hpiece)
    unfold dropTerminator
    split
    · exact fun h => hfeed (List.dropLast_subset _ h)
    · exact hfeed
  · exact not_mem_of_mem_splitOn (List.mem_of_getLast? hlast)

theorem dropTerminator_lines {lines : List (List Char)} (h : ∀ l ∈ lines, l.getLast? ≠ some '\r') :
    lines.map (dropTerminator '\r') = lines := by
  conv => rhs; rw [← List.map_id lines]
  exact List.map_congr_left fun l hl => dropTerminator_of_getLast?_ne (h l hl)

section
variable {texts : List (List Char)} (hfeed : ∀ l ∈ texts, '\n' ∉ l)
  (hreturn : ∀ l ∈ texts, l.getLast? ≠ some '\r')
include hfeed hreturn

theorem lines_ended : lines (ended '\n' texts) = texts := by
  have hsplit : (ended '\n' texts).splitOn '\n' = texts ++ [[]] := by
    rw [ended_eq_joined_concat]
    refine List.splitOn_intercalate '\n' (fun l hl => ?_) (by simp)
    rcases List.mem_append.1 hl with hl | hl
    · exact hfeed l hl
    · simp [List.mem_singleton.1 hl]
  simp [lines, hsplit, dropTerminator_lines hreturn]

theorem lines_joined (hlast : texts.getLast? ≠ some []) :
    lines (['\n'].intercalate texts) = texts := by
  cases hne : texts with
  | nil => rfl
  | cons l rest =>
    rw [← hne]
    have hnil : texts ≠ [] := by simp [hne]
    have hsplit := List.splitOn_intercalate '\n' hfeed hnil
    have hfront := dropTerminator_lines fun x (hx : x ∈ texts.dropLast) =>
      hreturn x (List.dropLast_subset _ hx)
    have hl := List.getLast?_eq_some_getLast hnil
    have hempty : texts.getLast hnil ≠ [] := fun e => hlast (e ▸ hl)
    simp only [lines, hsplit, hfront, hl, Option.toList_some, List.filter_cons, ne_eq, hempty,
      not_false_eq_true, decide_true, ↓reduceIte, List.filter_nil]
    exact List.dropLast_concat_getLast hnil

end

/-! ## The end of an answer -/

theorem dropLineEnds_append {ends : List Char} (h : ∀ c ∈ ends, c = '\r' ∨ c = '\n')
    (s : List Char) : dropLineEnds (s ++ ends) = dropLineEnds s := by
  have hends : ∀ c ∈ ends.reverse, (c == '\r' || c == '\n') = true := fun c hc => by
    simpa using h c (List.mem_reverse.1 hc)
  rw [dropLineEnds, dropLineEnds, List.reverse_append, List.dropWhile_append_of_pos hends]

theorem dropLineEnds_append_cons {c : Char} (h : c ≠ '\r' ∧ c ≠ '\n') (front rest : List Char) :
    dropLineEnds (front ++ c :: rest) = front ++ c :: dropLineEnds rest := by
  rw [dropLineEnds, dropLineEnds, List.reverse_append, List.reverse_cons, List.append_assoc,
    List.dropWhile_append]
  split
  · rename_i hall
    rw [List.isEmpty_iff.1 hall]
    simp [h]
  · simp

/-- What is dropped are line ends, and no line end is left before them. -/
theorem exists_eq_dropLineEnds_append (s : List Char) :
    ∃ ends, s = dropLineEnds s ++ ends ∧ (∀ c ∈ ends, c = '\r' ∨ c = '\n') ∧
      ∀ c ∈ (dropLineEnds s).getLast?, c ≠ '\r' ∧ c ≠ '\n' := by
  refine ⟨s.rtakeWhile fun c => c == '\r' || c == '\n', List.rdropWhile_append_rtakeWhile.symm,
    fun c hc => ?_, fun c hc => ?_⟩
  · simpa using List.mem_rtakeWhile_imp hc
  · have hhead := List.head?_dropWhile_not (fun c => c == '\r' || c == '\n') s.reverse
    rw [Option.mem_def, dropLineEnds, List.getLast?_reverse] at hc
    rw [hc] at hhead
    simpa using hhead

end GitReadout.Text
