import GitReadout.ObjectName
import GitReadout.Proofs.Log.Grouping
import GitReadout.Proofs.Text.Offset

/-!
# Object names and their abbreviations

A name has one canonical form, its digits in lower case, so names are equal if and only if their
spellings are, letter case aside. An abbreviation is the beginning of the canonical form, and where
it is long enough to be a name it abbreviates as the whole name does.

* `isCanonical_of_parse`, `parse_value`: what is read is canonical, and reading leaves it as it is.
* `exists_parse_iff`, `eq_iff_of_parse`: the spellings of names, and those of one name.
* `IsCanonical.abbreviate?_eq`, `IsCanonical.take`: abbreviations count characters, and from four
  characters on they are names.
* `parse_canonical`: all of this.
-/

set_option autoImplicit false

namespace GitReadout.ObjectName

open Log.Trailers (SameLetter)

/-! ## Digits -/

/-- The digits of base sixteen. -/
def hexDigits : List Char :=
  ['0', '1', '2', '3', '4', '5', '6', '7', '8', '9', 'a', 'b', 'c', 'd', 'e', 'f',
    'A', 'B', 'C', 'D', 'E', 'F']

theorem isHexDigit_iff {c : Char} : isHexDigit c = true ↔ c ∈ hexDigits := by
  constructor
  · intro h
    have hascii : ∀ n < 128, isHexDigit (Char.ofNat n) = true → Char.ofNat n ∈ hexDigits := by
      decide
    have hrange := toNat_of_isHexDigit h
    have hc := hascii c.toNat (by omega)
    rw [Char.ofNat_toNat] at hc
    exact hc h
  · have hdigits : hexDigits.all isHexDigit := by decide
    exact List.all_eq_true.1 hdigits c

theorem isLower_toLower {c : Char} (h : isHexDigit c = true) :
    c.toLower.isDigit = true ∨ 'a' ≤ c.toLower ∧ c.toLower ≤ 'f' := by
  have hdigits : hexDigits.all fun c =>
      c.toLower.isDigit = true ∨ 'a' ≤ c.toLower ∧ c.toLower ≤ 'f' := by decide
  exact of_decide_eq_true (List.all_eq_true.1 hdigits c (isHexDigit_iff.1 h))

section
variable {c : Char} (h : c.isDigit = true ∨ 'a' ≤ c ∧ c ≤ 'f')
include h

theorem mem_hexDigits_of_isLower : c ∈ hexDigits := by
  refine isHexDigit_iff.1 ?_
  rcases h with hdigit | hletter
  · simp [isHexDigit, hdigit]
  · simp [isHexDigit, hletter]

theorem toLower_eq_self : c.toLower = c := by
  have hdigits : hexDigits.all fun c =>
      c.isDigit = true ∨ 'a' ≤ c ∧ c ≤ 'f' → c.toLower = c := by decide
  exact of_decide_eq_true (List.all_eq_true.1 hdigits c (mem_hexDigits_of_isLower h)) h

theorem utf8Size_eq_one : c.utf8Size = 1 := by
  have hdigits : hexDigits.all (·.utf8Size = 1) := by decide
  exact of_decide_eq_true (List.all_eq_true.1 hdigits c (mem_hexDigits_of_isLower h))

end

/-! ## Spellings -/

/-- 4 to 64 hexadecimal digits, in lower case. -/
structure IsCanonical (name : ObjectName) : Prop where
  length : 4 ≤ name.value.toList.length ∧ name.value.toList.length ≤ 64
  digits : ∀ c ∈ name.value.toList, c.isDigit = true ∨ 'a' ≤ c ∧ c ≤ 'f'

theorem isName_iff {text : String} :
    isName text.toList = true ↔
      (4 ≤ text.length ∧ text.length ≤ 64) ∧ ∀ c ∈ text.toList, c ∈ hexDigits := by
  simp only [isName, Bool.and_eq_true, decide_eq_true_eq, List.all_eq_true, isHexDigit_iff,
    String.length_toList]

theorem isCanonical_of_parse {text : String} {name : ObjectName} (h : parse text = .ok name) :
    name.IsCanonical := by
  obtain ⟨hname, hvalue⟩ := parse_eq_ok_iff.1 h
  obtain ⟨hlength, hdigits⟩ := isName_iff.1 hname
  refine ⟨by rwa [hvalue, String.toList_ofList, List.length_map, String.length_toList],
    fun c hc => ?_⟩
  rw [hvalue, String.toList_ofList] at hc
  obtain ⟨d, hd, rfl⟩ := List.mem_map.1 hc
  exact isLower_toLower (isHexDigit_iff.2 (hdigits d hd))

theorem parse_value {name : ObjectName} (h : name.IsCanonical) : parse name.value = .ok name := by
  have hlower : name.value.toList.map Char.toLower = name.value.toList :=
    (List.map_congr_left fun c hc => toLower_eq_self (h.digits c hc)).trans (List.map_id _)
  have hname : isName name.value.toList = true :=
    isName_iff.2 ⟨by simpa only [String.length_toList] using h.length,
      fun c hc => mem_hexDigits_of_isLower (h.digits c hc)⟩
  exact parse_eq_ok_iff.2 ⟨hname, by rw [hlower, String.ofList_toList]⟩

theorem exists_parse_iff {text : String} :
    (∃ name, parse text = .ok name) ↔
      (4 ≤ text.length ∧ text.length ≤ 64) ∧ ∀ c ∈ text.toList, c ∈ hexDigits := by
  rw [← isName_iff]
  constructor
  · rintro ⟨name, h⟩
    exact (parse_eq_ok_iff.1 h).1
  · intro h
    exact ⟨_, parse_eq_ok_iff.2 ⟨h, rfl⟩⟩

theorem eq_iff_of_parse {s t : String} {name other : ObjectName} (hs : parse s = .ok name)
    (ht : parse t = .ok other) : name = other ↔ List.Forall₂ SameLetter s.toList t.toList := by
  obtain ⟨-, hname⟩ := parse_eq_ok_iff.1 hs
  obtain ⟨-, hother⟩ := parse_eq_ok_iff.1 ht
  rw [← Log.Trailers.sameKey_iff_forall₂, Log.Trailers.sameKey_iff]
  constructor
  · rintro rfl
    exact String.ofList_injective (hname.symm.trans hother)
  · intro hfold
    obtain ⟨value⟩ := name
    obtain ⟨value'⟩ := other
    exact congrArg ObjectName.mk (hname.trans ((congrArg String.ofList hfold).trans hother.symm))

/-! ## Abbreviations -/

namespace IsCanonical

variable {name : ObjectName} (h : name.IsCanonical)
include h

theorem utf8ByteSize_value : name.value.utf8ByteSize = name.value.toList.length := by
  rw [← Text.byteSize_eq_length fun c hc => utf8Size_eq_one (h.digits c hc),
    ← Text.utf8ByteSize_ofList, String.ofList_toList]

theorem abbreviate?_eq (n : Nat) :
    name.abbreviate? n = some (String.ofList (name.value.toList.take n)) := by
  have hcut := Text.cutAt?_of_ascii (fun c hc => utf8Size_eq_one (h.digits c hc))
    (Nat.min_le_right n name.value.toList.length)
  rw [abbreviate?, h.utf8ByteSize_value, hcut, Option.map_some, ← List.take_eq_take_min]

/-- An abbreviation to at least four digits is a name again. -/
theorem take {n : Nat} (hn : 4 ≤ n) :
    IsCanonical ⟨String.ofList (name.value.toList.take n)⟩ where
  length := by
    have hlength := h.length
    rw [String.toList_ofList, List.length_take]
    omega
  digits := by
    intro c hc
    rw [String.toList_ofList] at hc
    exact h.digits c (List.mem_of_mem_take hc)

end IsCanonical

/-- The spellings of names are 4 to 64 digits; they spell one name if they differ in the case of
letters only; the text of a name spells it; and its abbreviations are the beginnings of that text,
of which those of four digits or more are names with the same abbreviations up to their length. -/
theorem parse_canonical (s t : String) :
    ((∃ name, parse s = .ok name) ↔
      (4 ≤ s.length ∧ s.length ≤ 64) ∧ ∀ c ∈ s.toList, c ∈ hexDigits) ∧
    ∀ name, parse s = .ok name →
      (∀ other, parse t = .ok other →
        (name = other ↔ List.Forall₂ SameLetter s.toList t.toList)) ∧
      parse name.value = .ok name ∧
      ∀ n, ∃ short, name.abbreviate? n = some short ∧ short.toList <+: name.value.toList ∧
        short.length = min n name.value.length ∧
        (4 ≤ n → ∃ abbreviated, parse short = .ok abbreviated ∧
          ∀ m, abbreviated.abbreviate? m = name.abbreviate? (min m n)) := by
  refine ⟨exists_parse_iff, fun name hname => ⟨fun other => eq_iff_of_parse hname, ?_⟩⟩
  have hcanonical := isCanonical_of_parse hname
  refine ⟨parse_value hcanonical, fun n => ?_⟩
  let short := String.ofList (name.value.toList.take n)
  have hshort : short.toList = name.value.toList.take n := String.toList_ofList
  refine ⟨short, hcanonical.abbreviate?_eq n, ?_, ?_, fun hn => ?_⟩
  · rw [hshort]
    exact List.take_prefix n name.value.toList
  · rw [← String.length_toList, hshort, List.length_take, String.length_toList]
  · have hagain : IsCanonical ⟨short⟩ := hcanonical.take hn
    refine ⟨⟨short⟩, parse_value hagain, fun m => ?_⟩
    rw [hagain.abbreviate?_eq, hcanonical.abbreviate?_eq, hshort, List.take_take]

/-- Two spellings of a name of eight digits, and its abbreviation to five digits cut once more. -/
theorem parse_canonical_deadbeef :
    parse "DEADbeef" = .ok ⟨"deadbeef"⟩ ∧ parse "deadBEEF" = .ok ⟨"deadbeef"⟩ ∧
      List.Forall₂ SameLetter "DEADbeef".toList "deadBEEF".toList ∧
      ∃ short abbreviated, abbreviate? ⟨"deadbeef"⟩ 5 = some short ∧
        parse short = .ok abbreviated ∧
        abbreviated.abbreviate? 7 = abbreviate? ⟨"deadbeef"⟩ 5 := by
  have hs : parse "DEADbeef" = .ok ⟨"deadbeef"⟩ := by decide
  have ht : parse "deadBEEF" = .ok ⟨"deadbeef"⟩ := by decide
  obtain ⟨hcase, -, habbreviate⟩ := (parse_canonical "DEADbeef" "deadBEEF").2 _ hs
  obtain ⟨short, hshort, -, -, hname⟩ := habbreviate 5
  obtain ⟨abbreviated, hparse, hagain⟩ := hname (by decide)
  exact ⟨hs, ht, (hcase _ ht).1 rfl, short, abbreviated, hshort, hparse, hagain 7⟩

end GitReadout.ObjectName
