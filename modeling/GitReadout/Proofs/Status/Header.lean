import GitReadout.Proofs.Except
import GitReadout.Proofs.ObjectName
import GitReadout.Proofs.RefName
import GitReadout.Proofs.Text.Numeral
import GitReadout.Status.Report

/-!
# The texts of headers

Four headers are checked when they are read, each in a way of its own. What is read of one is said
here by its text alone: the name of a commit or `(initial)`, the name of a branch or `(detached)`,
two counts with their signs, one count. Any other text is the error of the header.

* `Reads`: a reading that gives what its text means.
* `Header.tip_reads`, `Header.branch_reads`, `Header.divergence_reads`, `Header.stashes_reads`: the
  four headers.
-/

set_option autoImplicit false

namespace GitReadout.Status

/-! ## Readings of texts -/

/-- A reading gives what its text means, and one error when the text means nothing. -/
def Reads {α : Type} (read : Except Failure α) (Means : α → Prop) (fault : Failure) : Prop :=
  (∀ a, read = .ok a ↔ Means a) ∧ ∀ e, read = .error e ↔ (∀ a, ¬Means a) ∧ e = fault

theorem reads_of_ok_iff {α : Type} {read : Except Failure α} {Means : α → Prop} {fault : Failure}
    (hok : ∀ a, read = .ok a ↔ Means a) (herror : ∀ e, read = .error e → e = fault) :
    Reads read Means fault := by
  refine ⟨hok, fun e => ?_⟩
  simp only [← hok]
  cases read with
  | ok a => exact iff_of_false (by simp) fun h => h.1 a rfl
  | error found =>
    constructor
    · exact fun h => ⟨by simp, herror e h⟩
    · rintro ⟨-, rfl⟩
      rw [herror found rfl]

theorem Reads.congr {α : Type} {read : Except Failure α} {Means Means' : α → Prop}
    {fault : Failure} (h : Reads read Means fault) (hmeans : ∀ a, Means a ↔ Means' a) :
    Reads read Means' fault := by
  rwa [← funext fun a => propext (hmeans a)]

/-- A reader that finds what a text means, or nothing. -/
theorem reads_found {α : Type} {found : Option α} {Means : α → Prop} (fault : Failure)
    (hmeans : ∀ a, found = some a ↔ Means a) :
    Reads (found.elim (.error fault) .ok) Means fault := by
  simp only [Reads, ← hmeans]
  cases found <;> simp [eq_comm]

/-- A reader of names whose errors all become one. -/
theorem reads_parsed {ε α : Type} {parsed : Except ε α} {Means : α → Prop} (fault : Failure)
    (hmeans : ∀ a, parsed = .ok a ↔ Means a) :
    Reads ((parsed.map some).mapError fun _ => fault) (fun value => ∃ a, Means a ∧ some a = value)
      fault := by
  refine reads_of_ok_iff (fun value => ?_) fun e h => ?_
  · simp only [mapError_eq_ok_iff, map_eq_ok_iff, hmeans]
  · obtain ⟨_, -, he⟩ := mapError_eq_error_iff.1 h
    exact he.symm

/-- What is made of a reading is made of what the text means. -/
theorem Reads.map {α β : Type} {read : Except Failure α} {Means : α → Prop} {fault : Failure}
    (h : Reads read Means fault) (make : α → β) :
    (∀ b, read.map make = .ok b ↔ ∃ a, Means a ∧ b = make a) ∧
      ∀ e, read.map make = .error e ↔ (∀ a, ¬Means a) ∧ e = fault := by
  refine ⟨fun b => ?_, fun e => ?_⟩
  · simp only [map_eq_ok_iff, h.1, eq_comm]
  · rw [map_eq_error_iff, h.2]

/-! ## Names -/

/-- The commit that a header tells of: none, or the one that is named by 4 to 64 digits of base
sixteen, of which the letters are kept in lower case. -/
def Header.TellsTip (header : Header) (tip : Option ObjectName) : Prop :=
  header.rest = "(initial)" ∧ tip = none ∨
    ∃ name, tip = some name ∧ (4 ≤ header.rest.length ∧ header.rest.length ≤ 64) ∧
      (∀ c ∈ header.rest.toList, c ∈ ObjectName.hexDigits) ∧
      name.value = String.ofList (header.rest.toList.map Char.toLower)

/-- The branch that a header tells of: none, or the one of this name, if it is a name. -/
def Header.TellsBranch (header : Header) (branch : Option RefName) : Prop :=
  header.rest = "(detached)" ∧ branch = none ∨
    header.rest ≠ "(detached)" ∧ branch = some ⟨header.rest⟩ ∧
      RefName.Obeys header.rest.toList (RefName.components header.rest.toList).getLast?.toList

theorem Header.tip_reads (header : Header) :
    Reads header.tip header.TellsTip (header.fault .badTip) := by
  unfold Header.tip
  split
  · rename_i hrest
    have hname : ¬∀ c ∈ header.rest.toList, c ∈ ObjectName.hexDigits := by
      rw [hrest]
      exact fun h => absurd (h '(' (by decide)) (by decide)
    refine reads_of_ok_iff (fun tip => ?_) (by simp)
    rw [TellsTip, or_iff_left fun ⟨_, _, _, hdigits, _⟩ => hname hdigits, and_iff_right hrest]
    simp [eq_comm]
  · rename_i hrest
    refine (reads_parsed _ fun _ => ObjectName.parse_eq_ok_iff).congr fun tip => ?_
    rw [TellsTip, or_iff_right fun h => hrest h.1]
    simp only [ObjectName.isName_iff]
    constructor
    · rintro ⟨name, ⟨⟨hlength, hdigits⟩, hvalue⟩, rfl⟩
      exact ⟨name, rfl, hlength, hdigits, hvalue⟩
    · rintro ⟨name, rfl, hlength, hdigits, hvalue⟩
      exact ⟨name, ⟨⟨hlength, hdigits⟩, hvalue⟩, rfl⟩

theorem Header.branch_reads (header : Header) :
    Reads header.branch header.TellsBranch (header.fault .badBranch) := by
  unfold Header.branch
  split
  · rename_i hrest
    exact reads_of_ok_iff (fun branch => by simp [TellsBranch, hrest, eq_comm]) (by simp)
  · rename_i hrest
    refine (reads_parsed _ fun _ => RefName.parse_eq_ok_iff).congr fun branch => ?_
    rw [TellsBranch, or_iff_right fun h => hrest h.1, and_iff_right hrest]
    simp only [RefName.isAllowed_iff_obeys]
    constructor
    · rintro ⟨⟨_⟩, ⟨hobeys, rfl⟩, rfl⟩
      exact ⟨rfl, hobeys⟩
    · rintro ⟨rfl, hobeys⟩
      exact ⟨_, ⟨hobeys, rfl⟩, rfl⟩

/-! ## Numbers -/

/-- How the commits are written by which a branch and the one it tracks differ. -/
def Divergence.IsWritten (counts : Divergence) (text : String) : Prop :=
  ∃ ahead behind, text.toList = '+' :: ahead ++ ' ' :: '-' :: behind ∧
    Text.IsCount 4294967295 ahead counts.ahead ∧ Text.IsCount 4294967295 behind counts.behind

theorem signedCount?_eq_some_iff {sign : Char} {s : List Char} {n : Nat} :
    signedCount? sign s = some n ↔
      ∃ count, s = sign :: count ∧ Text.IsCount 4294967295 count n := by
  unfold signedCount?
  split
  · rename_i c digits
    split
    · rename_i hsign
      rw [Text.unsigned?_eq_some_iff, hsign]
      exact ⟨fun h => ⟨digits, rfl, h⟩, fun ⟨_, hs, h⟩ => by cases hs; exact h⟩
    · rename_i hsign
      refine iff_of_false (by simp) fun ⟨_, hs, _⟩ => hsign ?_
      cases hs
      rfl
  · exact iff_of_false (by simp) fun ⟨_, hs, _⟩ => by cases hs

theorem not_mem_space_of_isCount {limit n : Nat} {s : List Char} (h : Text.IsCount limit s n) :
    ' ' ∉ s := by
  have hdigits {digits : List Char} (h : Text.IsNumeral limit digits n) : ' ' ∉ digits :=
    fun hspace => absurd (h.2.1 ' ' hspace) (by decide)
  obtain h | ⟨digits, rfl, h⟩ := h
  · exact hdigits h
  · simpa using hdigits h

theorem Divergence.parse?_eq_some_iff {text : String} {counts : Divergence} :
    Divergence.parse? text = some counts ↔ counts.IsWritten text := by
  simp only [Divergence.parse?, Option.pure_def, Option.bind_eq_bind, Option.bind_eq_some_iff,
    Option.some.injEq]
  constructor
  · rintro ⟨⟨first, second⟩, hcut, n, hahead, m, hbehind, rfl⟩
    obtain ⟨ahead, rfl, hn⟩ := signedCount?_eq_some_iff.1 hahead
    obtain ⟨behind, rfl, hm⟩ := signedCount?_eq_some_iff.1 hbehind
    exact ⟨ahead, behind, (Text.cut?_eq_some_iff.1 hcut).2, hn, hm⟩
  · rintro ⟨ahead, behind, htext, hn, hm⟩
    have hspace : ' ' ∉ '+' :: ahead := by simpa using not_mem_space_of_isCount hn
    exact ⟨('+' :: ahead, '-' :: behind), Text.cut?_eq_some_iff.2 ⟨hspace, htext⟩, counts.ahead,
      signedCount?_eq_some_iff.2 ⟨ahead, rfl, hn⟩, counts.behind,
      signedCount?_eq_some_iff.2 ⟨behind, rfl, hm⟩, rfl⟩

theorem Header.divergence_reads (header : Header) :
    Reads header.divergence (Divergence.IsWritten · header.rest) (header.fault .badDivergence) := by
  have hfound : header.divergence =
      (Divergence.parse? header.rest).elim (.error (header.fault .badDivergence)) .ok := by
    unfold Header.divergence
    cases Divergence.parse? header.rest <;> rfl
  rw [hfound]
  exact reads_found _ fun _ => Divergence.parse?_eq_some_iff

theorem Header.stashes_reads (header : Header) :
    Reads header.stashes (Text.IsCount 18446744073709551615 header.rest.toList)
      (header.fault .badStashes) := by
  have hfound : header.stashes = (Text.unsigned? Text.maxUnsigned64 header.rest.toList).elim
      (.error (header.fault .badStashes)) .ok := by
    unfold Header.stashes
    cases Text.unsigned? Text.maxUnsigned64 header.rest.toList <;> rfl
  rw [hfound]
  exact reads_found _ fun _ => Text.unsigned?_eq_some_iff

end GitReadout.Status
