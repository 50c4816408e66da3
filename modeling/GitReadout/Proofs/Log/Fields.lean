import GitReadout.Log.Commit
import GitReadout.Proofs.Log.Decoration
import GitReadout.Proofs.Log.Identity
import GitReadout.Proofs.Log.TrailerLine

/-!
# Written fields of a commit

What each structured field of a record may hold, how it is written, and that it is read back: the
author and the committer, the parents, the trailers and the references.

* `Identity.parse?_text`: a person and a time, whatever the name and the email hold.
* `words_parents`: the names of parents, one word each.
* `parse_block`: trailers, line by line, at the first separator of the repository.
* `tags_joined`: the tags among references.
-/

set_option autoImplicit false

namespace GitReadout.Log.Written

/-- A text that can stand in a field: neither fields nor records are cut in it. -/
def IsField (s : List Char) : Prop :=
  '\x1F' ∉ s ∧ '\x00' ∉ s

instance (s : List Char) : Decidable (IsField s) :=
  inferInstanceAs (Decidable (_ ∧ _))

theorem IsField.append {s t : List Char} (hs : IsField s) (ht : IsField t) : IsField (s ++ t) := by
  simp [IsField, hs.1, hs.2, ht.1, ht.2]

theorem IsField.cons {c : Char} {s : List Char} (hunit : c ≠ '\x1F') (hnul : c ≠ '\x00')
    (hs : IsField s) : IsField (c :: s) := by
  simp [IsField, hs.1, hs.2, hunit.symm, hnul.symm]

theorem isField_of_forall {s : List Char} {p : Char → Bool} (h : ∀ c ∈ s, p c = true)
    (hunit : p '\x1F' = false) (hnul : p '\x00' = false) : IsField s :=
  ⟨fun hc => by simp [h _ hc] at hunit, fun hc => by simp [h _ hc] at hnul⟩

theorem isField_intercalate {sep : List Char} {texts : List (List Char)} (hsep : IsField sep)
    (h : ∀ s ∈ texts, IsField s) : IsField (sep.intercalate texts) := by
  induction texts with
  | nil => simp [IsField]
  | cons s rest ih =>
    have hrest := ih fun x hx => h x (List.mem_cons_of_mem _ hx)
    cases rest with
    | nil => simpa using h s (by simp)
    | cons next rest =>
      rw [List.intercalate_cons_cons]
      exact ((h s (by simp)).append hsep).append hrest

theorem isField_ended {texts : List (List Char)} (h : ∀ s ∈ texts, IsField s) :
    IsField (Text.ended '\n' texts) := by
  induction texts with
  | nil => simp [IsField]
  | cons s rest ih =>
    rw [Text.ended_cons]
    exact (h s (by simp)).append
      (IsField.cons (by decide) (by decide) (ih fun x hx => h x (List.mem_cons_of_mem _ hx)))

/-! ## Identities -/

/-- Who made a commit and when, as it is written: the name does not hold ` <`, no part holds a line
feed, the time is one that can be read, and the offset is less than a day. -/
structure Identity where
  name : String
  email : String
  seconds : Nat
  behind : Bool
  hours : Nat
  minutes : Nat
  name_field : IsField name.toList
  name_feed : '\n' ∉ name.toList
  name_pair : ¬[' ', '<'] <:+: name.toList
  email_field : IsField email.toList
  email_feed : '\n' ∉ email.toList
  seconds_le : (seconds : Int) ≤ ZonedTime.maxSeconds
  hours_lt : hours < 100
  minutes_lt : minutes < 100
  offset_lt : hours * 60 + minutes < 1440

namespace Identity

def offset (identity : Identity) : Int :=
  if identity.behind then -(identity.hours * 60 + identity.minutes : Nat)
  else (identity.hours * 60 + identity.minutes : Nat)

/-- The offset as it is written: a sign, two digits of hours and two of minutes. -/
def zone (identity : Identity) : List Char :=
  (if identity.behind then '-' else '+') ::
    (Text.twoDigits identity.hours ++ Text.twoDigits identity.minutes)

def clock (identity : Identity) : List Char :=
  Nat.toDigits 10 identity.seconds ++ ' ' :: identity.zone

/-- The field. -/
def text (identity : Identity) : List Char :=
  identity.name.toList ++ ' ' :: '<' :: (identity.email.toList ++ '>' :: ' ' :: identity.clock)

/-- What is read. -/
def value (identity : Identity) : Log.Identity where
  name := identity.name
  email := identity.email
  date := { seconds := identity.seconds, offset := identity.offset * 60 }
  offsetMinutes := identity.offset

variable (identity : Identity)

theorem mem_clock {c : Char} (h : c ∈ identity.clock) :
    (c.isDigit || c = ' ' || c = '-' || c = '+') = true := by
  simp only [clock, zone, List.mem_append, List.mem_cons] at h
  rcases h with h | rfl | rfl | h | h
  · simp [Nat.isDigit_of_mem_toDigits (by decide) (by decide) h]
  · rfl
  · split <;> rfl
  · simp [Text.isDigit_of_mem_twoDigits identity.hours_lt h]
  · simp [Text.isDigit_of_mem_twoDigits identity.minutes_lt h]

/-- The parts of the field. -/
def split : Log.Identity.Split where
  name := identity.name.toList
  email := identity.email.toList
  seconds := Nat.toDigits 10 identity.seconds
  sign := some (if identity.behind then '-' else '+')
  hours := Text.twoDigits identity.hours
  minutes := Text.twoDigits identity.minutes

theorem isDigit_split : ∀ c ∈ identity.split.seconds ++ (identity.split.hours ++
    identity.split.minutes), c.isDigit = true := by
  simp only [split, List.forall_mem_append]
  exact ⟨fun c hc => Nat.isDigit_of_mem_toDigits (by decide) (by decide) hc,
    fun c hc => Text.isDigit_of_mem_twoDigits identity.hours_lt hc,
    fun c hc => Text.isDigit_of_mem_twoDigits identity.minutes_lt hc⟩

theorem fits_split : identity.split.Fits identity.text where
  text_eq := by simp [text, clock, zone, split, Log.Identity.Split.text, Log.Identity.Split.clock,
    Log.Identity.Split.zone]
  name_feed := identity.name_feed
  email_feed := identity.email_feed
  seconds_ne := Nat.toDigits_ne_nil
  sign_mem := by
    intro c hc
    cases hc
    cases identity.behind <;> decide
  hours_length := rfl
  minutes_length := rfl
  isDigit := fun c hc => Text.isDecimalDigit_of_isDigit (identity.isDigit_split c hc)

theorem isReadable_split : identity.split.IsReadable := by
  refine ⟨identity.isDigit_split, ?_, ?_⟩
  · rw [split, Text.natOfDigits_toDigits]
    exact identity.seconds_le
  · rw [split, Text.natOfDigits_twoDigits identity.hours_lt,
      Text.natOfDigits_twoDigits identity.minutes_lt]
    exact identity.offset_lt

theorem identity_split : identity.split.identity = identity.value := by
  have hoffset : identity.split.offsetMinutes = identity.offset := by
    rw [Log.Identity.Split.offsetMinutes, split, Text.natOfDigits_twoDigits identity.hours_lt,
      Text.natOfDigits_twoDigits identity.minutes_lt, offset, Log.Identity.Split.signed]
    cases identity.behind <;> rfl
  rw [Log.Identity.Split.identity, hoffset, split, Text.natOfDigits_toDigits]
  simp [value]

theorem parse?_text : Log.Identity.parse? (String.ofList identity.text) = some identity.value := by
  have hfits : identity.split.Fits (String.ofList identity.text).toList := by
    rw [String.toList_ofList]
    exact identity.fits_split
  rw [← identity_split]
  exact (hfits.parse?_eq_some_iff identity.name_pair).2 ⟨identity.isReadable_split, rfl⟩

theorem isField_text : IsField identity.text := by
  have hclock : IsField identity.clock :=
    isField_of_forall (fun c hc => identity.mem_clock hc) (by decide) (by decide)
  have hmail := identity.email_field.append
    (IsField.cons (c := '>') (by decide) (by decide)
      (IsField.cons (c := ' ') (by decide) (by decide) hclock))
  exact identity.name_field.append
    (IsField.cons (by decide) (by decide) (IsField.cons (by decide) (by decide) hmail))

end Identity

/-! ## Names of commits -/

/-- A hash: 4 to 64 hexadecimal digits in either case. -/
abbrev Hash := { s : String // ObjectName.isName s.toList }

def Hash.name (hash : Hash) : ObjectName :=
  ⟨String.ofList (hash.1.toList.map Char.toLower)⟩

theorem Hash.isHexDigit (hash : Hash) : ∀ c ∈ hash.1.toList, ObjectName.isHexDigit c = true := by
  have h := hash.2
  simp only [ObjectName.isName, Bool.and_eq_true, List.all_eq_true] at h
  exact h.2

theorem Hash.toList_ne_nil (hash : Hash) : hash.1.toList ≠ [] := by
  have h := hash.2
  simp only [ObjectName.isName, Bool.and_eq_true, decide_eq_true_eq] at h
  intro hnil
  rw [hnil] at h
  simp at h

theorem Hash.isField (hash : Hash) : IsField hash.1.toList :=
  isField_of_forall hash.isHexDigit (by decide) (by decide)

theorem isBlank_of_isHexDigit {c : Char} (h : ObjectName.isHexDigit c = true) :
    Text.isBlank c = false := by
  have hrange := ObjectName.toNat_of_isHexDigit h
  exact Text.isBlank_of_visible (by omega)

theorem words_parents (parents : List Hash) :
    Text.words ([' '].intercalate (parents.map fun h => h.1.toList)) =
      parents.map fun h => h.1.toList := by
  refine Text.words_joined (fun w hw => ?_) fun w hw => ?_
  · obtain ⟨hash, -, rfl⟩ := List.mem_map.1 hw
    exact hash.toList_ne_nil
  · obtain ⟨hash, -, rfl⟩ := List.mem_map.1 hw
    exact fun c hc => isBlank_of_isHexDigit (hash.isHexDigit c hc)

/-! ## Trailers -/

/-- A trailer of a repository with these separators: the key holds something and not the first of
them, and key and value are trimmed and hold no line end. -/
structure Trailer (separators : String) where
  first : Char
  key : String
  value : String
  head_separators : separators.toList.head? = some first
  key_ne : key ≠ ""
  key_trim : Text.trim key.toList = key.toList
  key_field : IsField key.toList
  key_line : '\n' ∉ key.toList ∧ '\r' ∉ key.toList
  key_first : first ∉ key.toList
  value_trim : Text.trim value.toList = value.toList
  value_field : IsField value.toList
  value_line : '\n' ∉ value.toList ∧ '\r' ∉ value.toList

namespace Trailer

variable {separators : String}

/-- The line of a trailer. -/
def line (trailer : Trailer separators) : List Char :=
  trailer.key.toList ++ trailer.first :: ' ' :: trailer.value.toList

/-- What is read. -/
def pair (trailer : Trailer separators) : String × String :=
  (trailer.key, trailer.value)

/-- The block of trailers, in which a line feed ends every line or stands between lines. -/
def block (trailers : List (Trailer separators)) (isEnded : Bool) : List Char :=
  if isEnded then Text.ended '\n' (trailers.map line) else ['\n'].intercalate (trailers.map line)

/-- Whether no text is cut at the separator: neither lines nor fields nor records. -/
def IsLine (trailer : Trailer separators) : Prop :=
  trailer.first ≠ '\n' ∧ trailer.first ≠ '\x1F' ∧ trailer.first ≠ '\x00'

theorem splitLine?_line (trailer : Trailer separators) :
    TrailerBlock.splitLine? separators.toList trailer.line =
      some (trailer.key.toList, trailer.value.toList) := by
  have hkey : Text.trim trailer.key.toList ≠ [] := by
    rw [trailer.key_trim]
    simpa using trailer.key_ne
  have hcut : TrailerBlock.cutAtSeparator? trailer.line trailer.first =
      some (trailer.key.toList, trailer.value.toList) := by
    rw [line, TrailerBlock.cutAtSeparator?_append trailer.key_first hkey, Text.trim_space_cons,
      trailer.key_trim, trailer.value_trim]
  obtain ⟨others, hothers⟩ := List.head?_eq_some_iff.1 trailer.head_separators
  rw [TrailerBlock.splitLine?, hothers, List.findSome?_cons, hcut]

/-- The line as one that any separator may stand in. -/
def toLine (trailer : Trailer separators) : TrailerLine where
  key := trailer.key
  separator := trailer.first
  value := trailer.value
  key_ne := trailer.key_ne
  key_trim := trailer.key_trim
  key_line := trailer.key_line
  value_trim := trailer.value_trim
  value_line := trailer.value_line

theorem lines_block {trailers : List (Trailer separators)} (isEnded : Bool)
    (h : ∀ trailer ∈ trailers, trailer.IsLine) :
    Text.lines (block trailers isEnded) = trailers.map line := by
  have hseparator : ∀ line ∈ trailers.map toLine, line.separator ≠ '\n' :=
    List.forall_mem_map.2 fun trailer ht => (h trailer ht).1
  have hmap : (trailers.map toLine).map TrailerLine.text = trailers.map line := List.map_map
  rw [← hmap, ← TrailerLine.lines_text isEnded hseparator, TrailerLine.block, hmap, block]

theorem parse_block {trailers : List (Trailer separators)} (isEnded : Bool)
    (h : ∀ trailer ∈ trailers, trailer.IsLine) :
    TrailerBlock.parse (String.ofList (block trailers isEnded)) separators =
      .ofList (trailers.map pair) := by
  have hpairs : TrailerBlock.pairs (String.ofList (block trailers isEnded)) separators =
      trailers.map pair := by
    rw [TrailerBlock.pairs, String.toList_ofList, lines_block isEnded h, List.filterMap_map,
      ← List.filterMap_eq_map]
    refine List.filterMap_congr fun trailer _ => ?_
    simp [splitLine?_line, pair]
  rw [TrailerBlock.parse, hpairs]

theorem isField_block {trailers : List (Trailer separators)} (isEnded : Bool)
    (h : ∀ trailer ∈ trailers, trailer.IsLine) : IsField (block trailers isEnded) := by
  have hline : ∀ l ∈ trailers.map line, IsField l := by
    intro l hl
    obtain ⟨trailer, ht, rfl⟩ := List.mem_map.1 hl
    obtain ⟨-, hunit, hnul⟩ := h trailer ht
    exact trailer.key_field.append
      (IsField.cons hunit hnul (IsField.cons (by decide) (by decide) trailer.value_field))
  unfold block
  split
  · exact isField_ended hline
  · exact isField_intercalate (by decide) hline

end Trailer

/-! ## References -/

/-- A reference to a commit: a tag, whose name has no white space, or any other text that is not cut
and does not look like a tag. -/
inductive Reference where
  | tag (name : String) (ne : name ≠ "") (blank : ∀ c ∈ name.toList, Text.isBlank c = false)
    (field : IsField name.toList)
  | other (text : String) (pair : ¬[',', ' '] <:+: text.toList)
    (head : ¬['t', 'a', 'g', ':', ' '] <+: Text.trim text.toList) (field : IsField text.toList)

namespace Reference

/-- The reference as it is written. -/
def text : Reference → List Char
  | tag name _ _ _ => ['t', 'a', 'g', ':', ' '] ++ name.toList
  | other text _ _ _ => text.toList

def tag? : Reference → Option String
  | tag name _ _ _ => some name
  | other _ _ _ _ => none

theorem pair_text (reference : Reference) : ¬[',', ' '] <:+: reference.text := by
  cases reference with
  | tag name ne blank field =>
    refine Decoration.not_infix_append (by decide) fun hspace => ?_
    have hblank := blank ' ' hspace
    rw [Text.isBlank_space] at hblank
    cases hblank
  | other text pair head field => exact pair

theorem tagOf?_text (reference : Reference) :
    Decoration.tagOf? reference.text = reference.tag?.map String.toList := by
  cases reference with
  | tag name ne blank field =>
    have hne : name.toList ≠ [] := by simpa using ne
    rw [text, Decoration.tagOf?_label, (Decoration.readName?_eq_self_iff hne).2 blank]
    rfl
  | other text pair head field =>
    unfold Decoration.tagOf?
    split
    · rename_i name hname
      refine absurd ?_ head
      rw [show Text.trim text.toList = _ from hname]
      exact List.prefix_append ['t', 'a', 'g', ':', ' '] name
    · rfl

/-- The field of references. -/
def joined (references : List Reference) : List Char :=
  [',', ' '].intercalate (references.map text)

theorem tags_joined (references : List Reference) :
    Decoration.tags (String.ofList (joined references)) = references.filterMap tag? := by
  rw [joined, Decoration.tags_intercalate, List.filterMap_map, List.map_filterMap]
  · refine List.filterMap_congr fun reference _ => ?_
    rw [Function.comp_apply, tagOf?_text]
    cases reference.tag? <;> simp
  · intro s hs
    obtain ⟨reference, -, rfl⟩ := List.mem_map.1 hs
    exact reference.pair_text

theorem isField_joined (references : List Reference) : IsField (joined references) := by
  refine isField_intercalate (by decide) fun s hs => ?_
  obtain ⟨reference, -, rfl⟩ := List.mem_map.1 hs
  cases reference with
  | tag name ne blank field => exact IsField.append (by decide) field
  | other text pair head field => exact field

end Reference

end GitReadout.Log.Written
