import GitReadout.Text.Blank
import Mathlib.Data.List.DropRight

/-!
# Trimmed texts and words

* `trim_eq_self`, `trim_space_cons`: a text without white space at its ends is not changed by
  trimming, nor is one with a space put in front.
* `trimEnd_append`: the end of a text is trimmed no further than to its last part that has some
  other character.
* `trim_append_of_isBlank`, `trim_append_of_not_isBlank`: what becomes of a character put behind.
* `trim_trim`: what is trimmed stays as it is.
* `words_eq_iff`: the words of a text, said without cutting it: the longest runs of characters that
  are no white space.
* `words_joined`: words come back from the text that is written with spaces between them.
-/

set_option autoImplicit false

namespace GitReadout.Text

theorem isBlank_space : isBlank ' ' = true := by decide

/-- No visible character of ASCII is white space. -/
theorem isBlank_of_visible {c : Char} (h : 0x21 ≤ c.toNat ∧ c.toNat ≤ 0x7E) :
    isBlank c = false := by
  simp only [isBlank, inRanges, blankRanges, List.any_cons, List.any_nil, Bool.or_false,
    Bool.or_eq_false_iff, Bool.and_eq_false_iff, decide_eq_false_iff_not]
  omega

theorem isBlank_of_isDigit {c : Char} (h : c.isDigit = true) : isBlank c = false := by
  have hrange : 48 ≤ c.toNat ∧ c.toNat ≤ 57 := by
    simpa [Char.isDigit, UInt32.le_iff_toNat_le] using h
  exact isBlank_of_visible (by omega)

theorem trimStart_of_not_isBlank {c : Char} (h : isBlank c = false) (s : List Char) :
    trimStart (c :: s) = c :: s := by
  simp [trimStart, h]

theorem trimEnd_eq_self {s : List Char} (hlast : ∀ c, s.getLast? = some c → isBlank c = false) :
    trimEnd s = s := by
  rw [trimEnd]
  cases hs : s.reverse with
  | nil => simp [List.reverse_eq_nil_iff.1 hs]
  | cons c rest =>
    have hc : s.getLast? = some c := by rw [← List.head?_reverse, hs]; rfl
    rw [List.dropWhile_cons_of_neg (by simp [hlast c hc]), ← hs, List.reverse_reverse]

theorem trim_eq_self {s : List Char} (hhead : ∀ c, s.head? = some c → isBlank c = false)
    (hlast : ∀ c, s.getLast? = some c → isBlank c = false) : trim s = s := by
  have hstart : trimStart s = s := by
    cases s with
    | nil => rfl
    | cons c rest => exact trimStart_of_not_isBlank (hhead c rfl) rest
  rw [trim, hstart, trimEnd_eq_self hlast]

theorem trim_space_cons (s : List Char) : trim (' ' :: s) = trim s := by
  simp [trim, trimStart, isBlank_space]

theorem mem_dropWhile_of_not {p : Char → Bool} {s : List Char} {c : Char} (hc : c ∈ s)
    (hp : p c = false) : c ∈ s.dropWhile p := by
  rw [← List.takeWhile_append_dropWhile (p := p) (l := s), List.mem_append] at hc
  refine hc.resolve_left fun htake => ?_
  rw [List.all_eq_true.1 (List.all_takeWhile) c htake] at hp
  cases hp

theorem trim_ne_nil {s : List Char} {c : Char} (hc : c ∈ s) (hblank : isBlank c = false) :
    trim s ≠ [] := by
  have hstart : c ∈ (trimStart s).reverse := List.mem_reverse.2 (mem_dropWhile_of_not hc hblank)
  have htrim : c ∈ trim s := List.mem_reverse.2 (mem_dropWhile_of_not hstart hblank)
  exact List.ne_nil_of_mem htrim

theorem trimEnd_isPrefix (s : List Char) : trimEnd s <+: s :=
  List.rdropWhile_prefix isBlank s

/-- What is trimmed at the end is white space. -/
theorem exists_eq_trimEnd_append (s : List Char) :
    ∃ gap, s = trimEnd s ++ gap ∧ ∀ c ∈ gap, isBlank c = true :=
  ⟨s.rtakeWhile isBlank, List.rdropWhile_append_rtakeWhile.symm,
    fun _ => List.mem_rtakeWhile_imp⟩

theorem trim_subset (s : List Char) : trim s ⊆ s :=
  List.Subset.trans (trimEnd_isPrefix (trimStart s)).subset (List.dropWhile_suffix _).subset

theorem trimEnd_append (s t : List Char) :
    trimEnd (s ++ t) = if trimEnd t = [] then trimEnd s else s ++ trimEnd t := by
  rw [trimEnd, List.reverse_append, List.dropWhile_append]
  by_cases h : t.reverse.dropWhile isBlank = [] <;> simp [trimEnd, h]

theorem length_trim_le (s : List Char) : (trim s).length ≤ s.length :=
  Nat.le_trans (trimEnd_isPrefix (trimStart s)).length_le (List.dropWhile_suffix _).length_le

theorem isBlank_of_head?_trim {s : List Char} {c : Char} (h : (trim s).head? = some c) :
    isBlank c = false := by
  obtain ⟨rest, hrest⟩ := trimEnd_isPrefix (trimStart s)
  have hstart : (s.dropWhile isBlank).head? = some c := by
    rw [show s.dropWhile isBlank = trim s ++ rest from hrest.symm, List.head?_append, h,
      Option.some_or]
  have hhead := List.head?_dropWhile_not isBlank s
  rwa [hstart] at hhead

theorem isBlank_of_getLast?_trim {s : List Char} {c : Char} (h : (trim s).getLast? = some c) :
    isBlank c = false := by
  rw [trim, trimEnd, List.getLast?_reverse] at h
  have hhead := List.head?_dropWhile_not isBlank (trimStart s).reverse
  rwa [h] at hhead

theorem trim_trim (s : List Char) : trim (trim s) = trim s :=
  trim_eq_self (fun _ => isBlank_of_head?_trim) fun _ => isBlank_of_getLast?_trim

theorem trimEnd_eq_nil_iff {s : List Char} : trimEnd s = [] ↔ ∀ c ∈ s, isBlank c = true :=
  List.rdropWhile_eq_nil_iff

theorem trim_append_of_isBlank {c : Char} (h : isBlank c = true) (s : List Char) :
    trim (s ++ [c]) = trim s := by
  simp only [trim, trimStart, List.dropWhile_append]
  split
  · rename_i hempty
    rw [List.isEmpty_iff.1 hempty]
    simp [h]
  · simp [trimEnd, h]

theorem trim_append_of_not_isBlank {s : List Char} {c : Char} (hne : s ≠ []) (hs : trim s = s)
    (hc : isBlank c = false) : trim (s ++ [c]) = s ++ [c] := by
  refine trim_eq_self (fun x hx => ?_) fun x hx => ?_
  · obtain ⟨first, rest, rfl⟩ := List.exists_cons_of_ne_nil hne
    exact isBlank_of_head?_trim (by rw [hs]; exact hx)
  · obtain rfl : c = x := by simpa using hx
    exact hc

/-! ## Words -/

/-- The words of a text, in order. In front of a word there may be white space; the word itself has
none and is not empty, and it ends where the text ends or white space follows. -/
inductive AreWords : List (List Char) → List Char → Prop
  | nil {gap : List Char} : (∀ c ∈ gap, isBlank c = true) → AreWords [] gap
  | cons {gap word rest : List Char} {words : List (List Char)} :
    (∀ c ∈ gap, isBlank c = true) → word ≠ [] → (∀ c ∈ word, isBlank c = false) →
    (∀ c ∈ rest.head?, isBlank c = true) → AreWords words rest →
    AreWords (word :: words) (gap ++ word ++ rest)

theorem words_append_of_isBlank {gap : List Char} (h : ∀ c ∈ gap, isBlank c = true)
    (s : List Char) : words (gap ++ s) = words s := by
  induction gap with
  | nil => rfl
  | cons c gap ih =>
    obtain ⟨hc, hgap⟩ := List.forall_mem_cons.1 h
    rw [List.cons_append, ← ih hgap]
    simp [words, List.splitOnP_cons_eq_if_modifyHead, hc]

theorem words_append_of_word {word rest : List Char} (hne : word ≠ [])
    (hword : ∀ c ∈ word, isBlank c = false) (hrest : ∀ c ∈ rest.head?, isBlank c = true) :
    words (word ++ rest) = word :: words rest := by
  cases rest with
  | nil => simp [words, List.splitOnP_eq_singleton hword, hne]
  | cons c rest =>
    have hc : isBlank c = true := hrest c rfl
    have hrest : words (c :: rest) = words rest :=
      @words_append_of_isBlank [c] (by simpa using hc) rest
    rw [hrest, words, List.splitOnP_append_cons_of_forall_mem hword c hc,
      List.filter_cons_of_pos (by simpa using hne), words]

theorem AreWords.words_eq {texts : List (List Char)} {s : List Char} (h : AreWords texts s) :
    words s = texts := by
  induction h with
  | @nil gap hgap =>
    rw [← List.append_nil gap, words_append_of_isBlank hgap, words_nil]
  | cons hgap hne hword hrest _ ih =>
    rw [List.append_assoc, words_append_of_isBlank hgap, words_append_of_word hne hword hrest, ih]

theorem AreWords.cons_of_isBlank {c : Char} (hc : isBlank c = true) {texts : List (List Char)}
    {s : List Char} (h : AreWords texts s) : AreWords texts (c :: s) := by
  cases h with
  | nil hgap => exact .nil (List.forall_mem_cons.2 ⟨hc, hgap⟩)
  | cons hgap hne hword hrest hwords =>
    exact .cons (List.forall_mem_cons.2 ⟨hc, hgap⟩) hne hword hrest hwords

theorem AreWords.cons_append {word rest : List Char} {words : List (List Char)} (hne : word ≠ [])
    (hword : ∀ c ∈ word, isBlank c = false) (hrest : ∀ c ∈ rest.head?, isBlank c = true)
    (h : AreWords words rest) : AreWords (word :: words) (word ++ rest) :=
  @AreWords.cons [] word rest words (by simp) hne hword hrest h

theorem exists_areWords (s : List Char) : ∃ texts, AreWords texts s := by
  induction s with
  | nil => exact ⟨[], .nil (by simp)⟩
  | cons c s ih =>
    obtain ⟨texts, h⟩ := ih
    cases hc : isBlank c with
    | true => exact ⟨texts, h.cons_of_isBlank hc⟩
    | false =>
      -- a word of its own if white space or nothing follows, and else the beginning of the next
      by_cases hhead : ∀ x ∈ s.head?, isBlank x = true
      · exact ⟨[c] :: texts, .cons_append (by simp) (by simpa using hc) hhead h⟩
      · cases h with
        | nil hgap => exact absurd (fun x hx => hgap x (List.mem_of_mem_head? hx)) hhead
        | @cons gap word rest words hgap hne hword hrest hwords =>
          cases gap with
          | cons x gap => exact absurd (by simpa using hgap x) hhead
          | nil =>
            have hword : ∀ x ∈ c :: word, isBlank x = false := List.forall_mem_cons.2 ⟨hc, hword⟩
            exact ⟨(c :: word) :: words, .cons_append (by simp) hword hrest hwords⟩

theorem words_eq_iff {texts : List (List Char)} {s : List Char} :
    words s = texts ↔ AreWords texts s := by
  refine ⟨?_, AreWords.words_eq⟩
  rintro rfl
  obtain ⟨texts, h⟩ := exists_areWords s
  rwa [h.words_eq]

theorem words_joined {texts : List (List Char)} (hne : ∀ w ∈ texts, w ≠ [])
    (hblank : ∀ w ∈ texts, ∀ c ∈ w, isBlank c = false) :
    words ([' '].intercalate texts) = texts := by
  rw [words_eq_iff]
  induction texts with
  | nil => exact .nil (by simp)
  | cons w rest ih =>
    obtain ⟨hw, hrest⟩ := List.forall_mem_cons.1 hne
    obtain ⟨hw', hrest'⟩ := List.forall_mem_cons.1 hblank
    have ih := ih hrest hrest'
    cases rest with
    | nil =>
      have hword : AreWords [w] (w ++ []) := .cons_append hw hw' (by simp) ih
      simpa using hword
    | cons next rest =>
      rw [List.intercalate_cons_cons, List.append_assoc]
      exact .cons_append hw hw' (by simp [isBlank_space]) (ih.cons_of_isBlank isBlank_space)

end GitReadout.Text
