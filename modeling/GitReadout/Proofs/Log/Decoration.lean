import Mathlib.Data.List.Basic
import GitReadout.Log.Decoration
import GitReadout.Proofs.RefName
import GitReadout.Proofs.Text.Blank
import GitReadout.Proofs.Text.Joined

/-!
# Tags in decorations

A decoration lists tags and branches, each name of which is one that the check of reference names
accepts. The check forbids the space and the control characters of ASCII, while the name of a tag is
read up to white space of any kind; so a name may lose its end, or be lost.

* `tags_intercalate`: entries with `, ` between them are read one by one.
* `tagOf?_label`: what is read of the entry of a tag, whatever its name.
* `tags_written`: the tags that a decoration gives, and when they are those that were written.
-/

set_option autoImplicit false

namespace GitReadout.Log.Decoration

/-! ## Entries -/

theorem tags_intercalate {texts : List (List Char)} (h : ∀ s ∈ texts, ¬[',', ' '] <:+: s) :
    tags (String.ofList ([',', ' '].intercalate texts)) =
      (texts.filterMap tagOf?).map String.ofList := by
  by_cases hne : texts = []
  · subst hne
    rfl
  · rw [tags, String.toList_ofList, Text.entries_joined hne h]

/-- No entry ends in a text that has no comma before the last space. -/
theorem not_infix_append {s name : List Char} (hs : ',' ∉ s) (hname : ' ' ∉ name) :
    ¬[',', ' '] <:+: s ++ name := by
  induction s with
  | nil => exact fun h => hname (h.subset (by simp))
  | cons c s ih =>
    simp only [List.mem_cons, not_or] at hs
    rw [List.cons_append, List.infix_cons_iff, List.cons_prefix_cons]
    exact not_or.2 ⟨fun h => hs.1 h.1, ih hs.2⟩

/-- What is read of the name of a tag. White space at its end is not taken for part of it, and no
name has white space within. -/
def readName? (name : List Char) : Option (List Char) :=
  let read := Text.trimEnd name
  if read ≠ [] ∧ !read.any Text.isBlank then some read else none

theorem tagOf?_label (name : List Char) :
    tagOf? (['t', 'a', 'g', ':', ' '] ++ name) = readName? name := by
  have htrim : Text.trim (['t', 'a', 'g', ':', ' '] ++ name) =
      if Text.trimEnd name = [] then ['t', 'a', 'g', ':']
      else ['t', 'a', 'g', ':', ' '] ++ Text.trimEnd name := by
    rw [Text.trim, List.cons_append, Text.trimStart_of_not_isBlank (by decide), ← List.cons_append,
      Text.trimEnd_append]
    rfl
  rw [tagOf?, htrim]
  by_cases hread : Text.trimEnd name = [] <;> simp [readName?, hread]

theorem tagOf?_of_not_mem {entry : List Char} (h : ':' ∉ entry) : tagOf? entry = none := by
  unfold tagOf?
  split
  · rename_i name htrim
    exact absurd (Text.trim_subset entry (htrim ▸ by simp)) h
  · rfl

theorem readName?_eq_self_iff {name : List Char} (hne : name ≠ []) :
    readName? name = some name ↔ ∀ c ∈ name, Text.isBlank c = false := by
  constructor
  · intro h
    simp only [readName?, Option.ite_none_right_eq_some, Option.some.injEq] at h
    obtain ⟨⟨-, hblank⟩, hread⟩ := h
    rw [hread] at hblank
    simpa using hblank
  · intro h
    have hread : Text.trimEnd name = name :=
      Text.trimEnd_eq_self fun c hc => h c (List.mem_of_getLast? hc)
    simpa [readName?, hread, hne] using h

/-! ## Written decorations -/

/-- A name that the check of reference names accepts. -/
structure Name where
  text : String
  accepted : ∃ branch, RefName.parse text = .ok branch

namespace Name

theorem isAllowed (name : Name) : RefName.isAllowed name.text.toList :=
  let ⟨_, h⟩ := name.accepted
  (RefName.parse_eq_ok_iff.1 h).1

theorem ne_nil (name : Name) : name.text.toList ≠ [] :=
  (RefName.isAllowed_iff.1 name.isAllowed).1

theorem not_mem (name : Name) {c : Char} (h : RefName.isForbidden c = true) :
    c ∉ name.text.toList := fun hc =>
  (RefName.isAllowed_iff.1 name.isAllowed).2.2.2.2.1 c hc h

end Name

/-- A reference to a commit. -/
inductive Reference where
  | tag (name : Name)
  /-- A branch of the repository or of a remote one. -/
  | branch (name : Name)
  /-- The head, which is at a branch. -/
  | head (name : Name)

namespace Reference

/-- The reference as it is written. -/
def text : Reference → List Char
  | tag name => ['t', 'a', 'g', ':', ' '] ++ name.text.toList
  | branch name => name.text.toList
  | head name => ['H', 'E', 'A', 'D', ' ', '-', '>', ' '] ++ name.text.toList

/-- The name of a tag. -/
def tag? : Reference → Option String
  | tag name => some name.text
  | branch _ => none
  | head _ => none

/-- The name of a tag as far as it is read. -/
def read? (reference : Reference) : Option String :=
  reference.tag?.bind fun name => (readName? name.toList).map String.ofList

/-- The decoration that lists references. -/
def written (references : List Reference) : String :=
  String.ofList ([',', ' '].intercalate (references.map text))

theorem not_infix_text (reference : Reference) : ¬[',', ' '] <:+: reference.text := by
  cases reference with
  | tag name => exact not_infix_append (by decide) (name.not_mem (by decide))
  | branch name => exact not_infix_append List.not_mem_nil (name.not_mem (by decide))
  | head name => exact not_infix_append (by decide) (name.not_mem (by decide))

theorem tagOf?_text (reference : Reference) :
    (tagOf? reference.text).map String.ofList = reference.read? := by
  cases reference with
  | tag name => simp only [text, read?, tag?, Option.bind_some, tagOf?_label]
  | branch name =>
    have hcolon : ':' ∉ name.text.toList := name.not_mem (by decide)
    rw [text, tagOf?_of_not_mem hcolon, Option.map_none, read?, tag?, Option.bind_none]
  | head name =>
    have hcolon : ':' ∉ ['H', 'E', 'A', 'D', ' ', '-', '>', ' '] ++ name.text.toList :=
      List.not_mem_append (by decide) (name.not_mem (by decide))
    rw [text, tagOf?_of_not_mem hcolon, Option.map_none, read?, tag?, Option.bind_none]

theorem read?_eq_tag?_iff (reference : Reference) : reference.read? = reference.tag? ↔
    ∀ name, reference.tag? = some name → ∀ c ∈ name.toList, Text.isBlank c = false := by
  cases reference with
  | tag name =>
    have hread : (readName? name.text.toList).map String.ofList = some name.text ↔
        readName? name.text.toList = some name.text.toList := by
      rw [Option.map_eq_some_iff]
      exact ⟨fun ⟨s, hs, he⟩ => by rw [hs, ← he, String.toList_ofList], fun h =>
        ⟨_, h, String.ofList_toList⟩⟩
    simp only [read?, tag?, Option.bind_some, Option.some.injEq, forall_eq', hread]
    exact readName?_eq_self_iff name.ne_nil
  | branch name => simp [read?, tag?]
  | head name => simp [read?, tag?]

end Reference

/-- Where one reading gives nothing that another does not, they agree on a list only element by
element. -/
theorem filterMap_eq_filterMap_iff {α β : Type} {f g : α → Option β} {l : List α}
    (h : ∀ a, g a = none → f a = none) :
    l.filterMap f = l.filterMap g ↔ ∀ a ∈ l, f a = g a := by
  have hlength (l : List α) : (l.filterMap f).length ≤ (l.filterMap g).length := by
    induction l with
    | nil => exact Nat.le_refl _
    | cons a l ih =>
      rw [List.filterMap_cons, List.filterMap_cons]
      cases hg : g a with
      | none => simpa [h a hg] using ih
      | some b =>
        cases f a with
        | none => exact Nat.le_succ_of_le ih
        | some c => exact Nat.succ_le_succ ih
  induction l with
  | nil => simp
  | cons a l ih =>
    rw [List.forall_mem_cons, List.filterMap_cons, List.filterMap_cons]
    cases hg : g a with
    | none => simpa [h a hg] using ih
    | some b =>
      cases f a with
      | none =>
        -- the first list would then be too short
        refine iff_of_false (fun (he : l.filterMap f = b :: l.filterMap g) => ?_) (by simp)
        have hle := hlength l
        rw [he, List.length_cons] at hle
        omega
      | some c =>
        rw [List.cons.injEq, Option.some.injEq]
        exact and_congr_right' ih

/-- **Which tags a decoration gives.** Of every list of references with accepted names the
tags come back in order, each as far as it is read. They are those that were written if
and only if none of them has white space in it, of any kind. -/
theorem tags_written (references : List Reference) :
    tags (Reference.written references) = references.filterMap Reference.read? ∧
      (tags (Reference.written references) = references.filterMap Reference.tag? ↔
        ∀ name ∈ references.filterMap Reference.tag?,
          ∀ c ∈ name.toList, Text.isBlank c = false) := by
  have hread : tags (Reference.written references) =
      references.filterMap Reference.read? := by
    rw [Reference.written, tags_intercalate, List.filterMap_map, List.map_filterMap]
    · exact List.filterMap_congr fun reference _ => reference.tagOf?_text
    · intro s hs
      obtain ⟨reference, -, rfl⟩ := List.mem_map.1 hs
      exact reference.not_infix_text
  refine ⟨hread, ?_⟩
  rw [hread, filterMap_eq_filterMap_iff fun reference h => by rw [Reference.read?, h]; rfl]
  simp only [Reference.read?_eq_tag?_iff, List.mem_filterMap]
  exact ⟨fun h name ⟨reference, hmem, htag⟩ => h reference hmem name htag,
    fun h reference hmem name htag => h name ⟨reference, hmem, htag⟩⟩

/-- Two tags with accepted names: one is lost for the no-break space in it, the other loses the
ideographic space at its end. -/
theorem tags_blank :
    (RefName.parse "v1\u00a0rc" = .ok ⟨"v1\u00a0rc"⟩ ∧ tags "tag: v1\u00a0rc" = []) ∧
      RefName.parse "v1\u3000" = .ok ⟨"v1\u3000"⟩ ∧ tags "tag: v1\u3000" = ["v1"] := by
  refine ⟨⟨RefName.parse_eq_ok_iff.2 ⟨by decide +kernel, rfl⟩, by decide +kernel⟩,
    RefName.parse_eq_ok_iff.2 ⟨by decide +kernel, rfl⟩, by decide +kernel⟩

end GitReadout.Log.Decoration
