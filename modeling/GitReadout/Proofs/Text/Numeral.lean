import GitReadout.Text.Numeral
import Mathlib.Tactic.Ring

/-!
# Written numbers

* `natOfDigits_toDigits`: a number comes back from its decimal digits.
* `natOfDigits?_eq_some_iff`: what is read of a run of ASCII digits.
* `natOfDigits_append`, `natOfDigits_lt`: the value of a run, by the place of each digit.
* `natOfDigits_zeros`: zeros in front count for nothing.
* `natOfDigits_twoDigits`: two digits are a number below a hundred.
* `unsigned?_eq_some_iff`: which texts are read as counts.
-/

set_option autoImplicit false

namespace GitReadout.Text

theorem natOfDigits_eq_ofDigitChars (s : List Char) : natOfDigits s = Nat.ofDigitChars 10 s 0 := by
  rw [Nat.ofDigitChars_eq_foldl, natOfDigits]

theorem natOfDigits?_eq_some_iff {s : List Char} {n : Nat} :
    natOfDigits? s = some n ↔ s ≠ [] ∧ (∀ c ∈ s, c.isDigit = true) ∧ natOfDigits s = n := by
  simp [natOfDigits?, and_assoc]

/-- What was read before moves up by one place for each further digit. -/
theorem foldl_digits (s : List Char) (n : Nat) :
    s.foldl (fun n c => 10 * n + (c.toNat - '0'.toNat)) n = n * 10 ^ s.length + natOfDigits s := by
  induction s generalizing n with
  | nil => simp [natOfDigits]
  | cons c s ih =>
    rw [natOfDigits, List.foldl_cons, List.foldl_cons, ih, ih, List.length_cons, Nat.pow_succ]
    ring

theorem natOfDigits_append (s t : List Char) :
    natOfDigits (s ++ t) = natOfDigits s * 10 ^ t.length + natOfDigits t := by
  rw [natOfDigits, List.foldl_append, foldl_digits, ← natOfDigits]

theorem natOfDigits_cons (c : Char) (s : List Char) :
    natOfDigits (c :: s) = (c.toNat - '0'.toNat) * 10 ^ s.length + natOfDigits s := by
  have h := natOfDigits_append [c] s
  simpa [natOfDigits] using h

theorem natOfDigits_lt {s : List Char} (h : ∀ c ∈ s, c.isDigit = true) :
    natOfDigits s < 10 ^ s.length := by
  induction s with
  | nil => simp [natOfDigits]
  | cons c s ih =>
    obtain ⟨hc, hs⟩ := List.forall_mem_cons.1 h
    have hdigit : c.toNat - '0'.toNat ≤ 9 := by
      simp only [Char.isDigit, Bool.and_eq_true, decide_eq_true_eq] at hc
      have hhigh : c.toNat ≤ 57 := UInt32.le_iff_toNat_le.1 hc.2
      have hzero : '0'.toNat = 48 := by decide
      omega
    calc natOfDigits (c :: s)
        = (c.toNat - '0'.toNat) * 10 ^ s.length + natOfDigits s := natOfDigits_cons c s
      _ < 9 * 10 ^ s.length + 10 ^ s.length :=
        Nat.add_lt_add_of_le_of_lt (Nat.mul_le_mul_right _ hdigit) (ih hs)
      _ = 10 ^ (c :: s).length := by
        rw [List.length_cons, Nat.pow_succ]
        ring

theorem natOfDigits_toDigits (n : Nat) : natOfDigits (Nat.toDigits 10 n) = n := by
  rw [natOfDigits_eq_ofDigitChars, Nat.ofDigitChars_toDigits (by decide) (by decide)]

theorem natOfDigits_zeros (n : Nat) (s : List Char) :
    natOfDigits (List.replicate n '0' ++ s) = natOfDigits s := by
  induction n with
  | zero => rfl
  | succ n ih => rwa [List.replicate_succ, List.cons_append, natOfDigits, List.foldl_cons]

/-- The two decimal digits of a number below a hundred. -/
def twoDigits (n : Nat) : List Char :=
  [Nat.digitChar (n / 10), Nat.digitChar (n % 10)]

theorem isDigit_digitChar {n : Nat} (h : n < 10) : (Nat.digitChar n).isDigit = true := by
  have := Nat.isDigit_of_mem_toDigits (b := 10) (n := n) (c := n.digitChar) (by decide) (by decide)
  rw [Nat.toDigits_of_lt_base h] at this
  exact this (by simp)

theorem isDigit_of_mem_twoDigits {n : Nat} {c : Char} (hn : n < 100) (hc : c ∈ twoDigits n) :
    c.isDigit = true := by
  simp only [twoDigits, List.mem_cons, List.not_mem_nil, or_false] at hc
  rcases hc with rfl | rfl <;> exact isDigit_digitChar (by omega)

theorem natOfDigits_twoDigits {n : Nat} (hn : n < 100) : natOfDigits (twoDigits n) = n := by
  have h1 : n / 10 < 10 := by omega
  have h2 : n % 10 < 10 := by omega
  simp only [twoDigits, natOfDigits_eq_ofDigitChars, Nat.ofDigitChars_cons_digitChar_of_lt_ten h1,
    Nat.ofDigitChars_cons_digitChar_of_lt_ten h2, Nat.ofDigitChars_nil]
  omega

/-! ## Counts -/

/-- The number up to `limit` that a text writes in ASCII digits and nothing else. -/
def IsNumeral (limit : Nat) (digits : List Char) (n : Nat) : Prop :=
  digits ≠ [] ∧ (∀ c ∈ digits, c.isDigit = true) ∧ Nat.ofDigitChars 10 digits 0 = n ∧ n ≤ limit

/-- The number up to `limit` that a text writes with one plus sign in front or none. -/
def IsCount (limit : Nat) (s : List Char) (n : Nat) : Prop :=
  IsNumeral limit s n ∨ ∃ digits, s = '+' :: digits ∧ IsNumeral limit digits n

theorem filter_natOfDigits?_eq_some_iff {limit n : Nat} {s : List Char} :
    (natOfDigits? s).filter (· ≤ limit) = some n ↔ IsNumeral limit s n := by
  rw [Option.filter_eq_some_iff, natOfDigits?_eq_some_iff, natOfDigits_eq_ofDigitChars, IsNumeral,
    decide_eq_true_eq, and_assoc, and_assoc]

theorem IsNumeral.head?_ne_plus {limit n : Nat} {s : List Char} (h : IsNumeral limit s n) :
    s.head? ≠ some '+' := by
  intro hplus
  have hdigit := h.2.1 '+' (List.mem_of_head? hplus)
  revert hdigit
  decide

theorem unsigned?_eq_some_iff {limit n : Nat} {s : List Char} :
    unsigned? limit s = some n ↔ IsCount limit s n := by
  unfold unsigned? IsCount
  split
  · rename_i rest
    rw [filter_natOfDigits?_eq_some_iff]
    constructor
    · exact fun h => .inr ⟨rest, rfl, h⟩
    · rintro (h | ⟨_, hs, h⟩)
      · exact absurd rfl h.head?_ne_plus
      · cases hs
        exact h
  · rename_i hplus
    rw [filter_natOfDigits?_eq_some_iff]
    exact ⟨.inl, fun h => h.resolve_right fun ⟨digits, hs, _⟩ => hplus digits hs⟩

theorem IsCount.le {limit n : Nat} {s : List Char} (h : IsCount limit s n) : n ≤ limit :=
  le_of_unsigned?_eq_some (unsigned?_eq_some_iff.2 h)

end GitReadout.Text
