import GitReadout.Log.Identity
import GitReadout.Proofs.Text.Numeral
import GitReadout.Proofs.Text.Pair
import Mathlib.Data.List.Basic

/-!
# The grammar of authors and committers

A text may be split in several ways into a name, an email and a clock, since name and email may hold
` <` and `> `. All splits have the same clock, which holds no `>`; among them is one whose name
does not hold ` <`, and that is the one that is read.

* `Split.Fits.front_eq`: all splits of a text have one clock.
* `Split.Fits.exists_first`, `Split.Fits.isChosen_of_first`, `Split.IsChosen.not_pair_name`: the
  split at the first ` <` is the one that a matcher finds first that tries short names before long
  ones and then short emails before long ones.
* `Split.offsets_eq`: the arithmetic on two digits each stays within 32 bits.
* `Split.Fits.parse?_eq_some_iff`: what is read of a text, from its split at the first ` <`.
* `parse?_grammar`: all of this, for every text.
-/

set_option autoImplicit false

namespace GitReadout.Log.Identity

/-! ## Splits -/

/-- The parts of an identity as they are written. -/
structure Split where
  name : List Char
  email : List Char
  seconds : List Char
  sign : Option Char
  hours : List Char
  minutes : List Char
deriving DecidableEq

namespace Split

/-- The sign, if there is one, the hours and the minutes. -/
def zone (split : Split) : List Char :=
  split.sign.toList ++ (split.hours ++ split.minutes)

/-- What follows the email. -/
def clock (split : Split) : List Char :=
  split.seconds ++ ' ' :: split.zone

/-- What stands before the clock, without the `> ` in between. -/
def front (split : Split) : List Char :=
  split.name ++ ' ' :: '<' :: split.email

/-- The text that is split. -/
def text (split : Split) : List Char :=
  split.name ++ ' ' :: '<' :: (split.email ++ '>' :: ' ' :: split.clock)

/-- A number behind its sign. -/
def signed (sign : Option Char) (n : Nat) : Int :=
  if sign = some '-' then -(n : Int) else (n : Int)

/-- Minutes by which the clock was ahead of UTC. -/
def offsetMinutes (split : Split) : Int :=
  signed split.sign (Text.natOfDigits split.hours * 60 + Text.natOfDigits split.minutes)

/-- Who and when, as the parts say. -/
def identity (split : Split) : Identity where
  name := String.ofList split.name
  email := String.ofList split.email
  date := { seconds := Text.natOfDigits split.seconds, offset := split.offsetMinutes * 60 }
  offsetMinutes := split.offsetMinutes

/-- A split of a text: the name and the email are any text within a line, the seconds at least one
digit, the hours and the minutes two digits each, of any script. -/
structure Fits (split : Split) (text : List Char) : Prop where
  text_eq : text = split.text
  name_feed : '\n' ∉ split.name
  email_feed : '\n' ∉ split.email
  seconds_ne : split.seconds ≠ []
  sign_mem : ∀ c ∈ split.sign, c = '+' ∨ c = '-'
  hours_length : split.hours.length = 2
  minutes_length : split.minutes.length = 2
  isDigit : ∀ c ∈ split.seconds ++ (split.hours ++ split.minutes), Text.isDecimalDigit c = true

/-- The digits are ASCII digits, and the time and the offset are ones that a date can have. -/
def IsReadable (split : Split) : Prop :=
  (∀ c ∈ split.seconds ++ (split.hours ++ split.minutes), c.isDigit = true) ∧
    (Text.natOfDigits split.seconds : Int) ≤ ZonedTime.maxSeconds ∧
    Text.natOfDigits split.hours * 60 + Text.natOfDigits split.minutes < 1440

instance (split : Split) : Decidable split.IsReadable :=
  inferInstanceAs (Decidable (_ ∧ _ ∧ _))

/-- A split is found first when no other split has a shorter name, or as short a name and a shorter
email. -/
def IsChosen (split : Split) (text : List Char) : Prop :=
  split.Fits text ∧ ∀ other : Split, other.Fits text →
    split.name.length < other.name.length ∨
      split.name.length = other.name.length ∧ split.email.length ≤ other.email.length

/-! ## The clock -/

section
variable {split other : Split} {s : List Char}

theorem text_eq_front (split : Split) : split.text = split.front ++ '>' :: ' ' :: split.clock := by
  simp [text, front]

theorem isDecimalDigit_ne {c : Char} (h : Text.isDecimalDigit c = true) :
    c ≠ '>' ∧ c ≠ ' ' ∧ c ≠ '+' ∧ c ≠ '-' := by
  refine ⟨?_, ?_, ?_, ?_⟩ <;>
    · rintro rfl
      exact absurd h (by decide)

theorem Fits.space_not_mem_seconds (h : split.Fits s) : ' ' ∉ split.seconds := fun hc =>
  (isDecimalDigit_ne (h.isDigit _ (List.mem_append_left _ hc))).2.1 rfl

theorem Fits.not_mem_clock (h : split.Fits s) : '>' ∉ split.clock := by
  intro hc
  simp only [clock, zone, List.mem_append, List.mem_cons, Option.mem_toList] at hc
  rcases hc with hc | hc | hc | hc | hc
  · exact (isDecimalDigit_ne (h.isDigit _ (by simp [hc]))).1 rfl
  · exact absurd hc (by decide)
  · exact (h.sign_mem _ hc).elim (by decide) (by decide)
  · exact (isDecimalDigit_ne (h.isDigit _ (by simp [hc]))).1 rfl
  · exact (isDecimalDigit_ne (h.isDigit _ (by simp [hc]))).1 rfl

/-- All splits of a text have one clock, and the same text in front of it. -/
theorem Fits.front_eq (h : split.Fits s) (hother : other.Fits s) :
    split.front = other.front ∧ split.clock = other.clock := by
  have hcut :=
    Text.cutAtLastPair?_append (a := '>') (b := ' ') (by decide) h.not_mem_clock split.front
  have hcutOther :=
    Text.cutAtLastPair?_append (a := '>') (b := ' ') (by decide) hother.not_mem_clock other.front
  rw [← text_eq_front, ← h.text_eq] at hcut
  rw [← text_eq_front, ← hother.text_eq, hcut] at hcutOther
  simpa only [Option.some.injEq, Prod.mk.injEq] using hcutOther

/-! ## The name -/

/-- Among the splits of a text is one with the same clock whose name does not hold ` <`. -/
theorem Fits.exists_first (h : split.Fits s) :
    ∃ first : Split, first.Fits s ∧ ¬[' ', '<'] <:+: first.name ∧
      (first.IsReadable ↔ split.IsReadable) := by
  obtain ⟨name, email, hfront, hname⟩ :=
    Text.exists_first_pair (a := ' ') (b := '<') (s := split.front) ⟨split.name, split.email, by
      simp [front]⟩
  have hfeed : '\n' ∉ split.front := by
    simp [front, h.name_feed, h.email_feed]
  rw [hfront, List.mem_append, not_or] at hfeed
  refine ⟨{ split with name, email }, ⟨?_, hfeed.1, fun hc => hfeed.2 (by simp [hc]), h.seconds_ne,
    h.sign_mem, h.hours_length, h.minutes_length, h.isDigit⟩, hname, Iff.rfl⟩
  rw [h.text_eq, text_eq_front, hfront]
  simp [text, clock, zone]

theorem Fits.isChosen_of_first (h : split.Fits s) (hname : ¬[' ', '<'] <:+: split.name) :
    split.IsChosen s := by
  refine ⟨h, fun other hother => ?_⟩
  have hfront := (h.front_eq hother).1
  have hle := Text.length_le_of_first_pair (by decide) hname hfront
  have hlength := congrArg List.length hfront
  simp only [front, List.length_append, List.length_cons] at hlength
  omega

theorem IsChosen.not_pair_name (h : split.IsChosen s) : ¬[' ', '<'] <:+: split.name := by
  obtain ⟨hfits, hleast⟩ := h
  obtain ⟨first, hfirst, hname, -⟩ := hfits.exists_first
  -- neither name is longer than the other, and both begin the same text
  have hle : split.name.length ≤ first.name.length := by
    have := hleast first hfirst
    omega
  have hge := Text.length_le_of_first_pair (by decide) hname (hfirst.front_eq hfits).1
  have hfront : split.name ++ ' ' :: '<' :: split.email = first.name ++ ' ' :: '<' :: first.email :=
    (hfits.front_eq hfirst).1
  rw [(List.append_inj hfront (by omega)).1]
  exact hname

end

/-! ## The arithmetic -/

/-- A number that fits into 32 bits with a sign; else an overflow to that number. -/
def step32 (n : Int) : Except Int Int :=
  if -2147483648 ≤ n ∧ n ≤ 2147483647 then .ok n else .error n

/-- A number up to `limit` in ASCII digits. -/
def numeral? (limit : Nat) (digits : List Char) : Option Nat :=
  (Text.natOfDigits? digits).filter (· ≤ limit)

/-- The offset in minutes and in seconds, each step within 32 bits. -/
def offsets (sign : Option Char) (hours minutes : Nat) : Except Int (Int × Int) := do
  let ofHours ← step32 (hours * 60)
  let sum ← step32 (ofHours + minutes)
  let inMinutes ← step32 ((if sign = some '-' then -1 else 1) * sum)
  let inSeconds ← step32 (inMinutes * 60)
  return (inMinutes, inSeconds)

/-- What is read of a split, in numbers of the machine: the seconds are a number of 64 bits with a
sign, the hours, the minutes and all that is computed from them numbers of 32 bits with a sign. An
error is an overflow. -/
def read (split : Split) : Except Int (Option Identity) :=
  match numeral? 9223372036854775807 split.seconds, numeral? 2147483647 split.hours,
    numeral? 2147483647 split.minutes with
  | some seconds, some hours, some minutes =>
    (offsets split.sign hours minutes).map fun (offsetMinutes, offset) =>
      if ZonedTime.isOffset offset ∧ (seconds : Int) ≤ ZonedTime.maxSeconds then
        some {
          name := String.ofList split.name
          email := String.ofList split.email
          date := { seconds, offset }
          offsetMinutes }
      else none
  | _, _, _ => .ok none

theorem step32_eq {n : Int} (h : -2147483648 ≤ n ∧ n ≤ 2147483647) : step32 n = .ok n :=
  if_pos h

theorem offsets_eq (sign : Option Char) {hours minutes : Nat} (hhours : hours < 100)
    (hminutes : minutes < 100) :
    offsets sign hours minutes =
      .ok (signed sign (hours * 60 + minutes), signed sign (hours * 60 + minutes) * 60) := by
  have hsigned : (if sign = some '-' then -1 else 1) * ((hours : Int) * 60 + minutes) =
      signed sign (hours * 60 + minutes) := by
    unfold signed
    split <;> push_cast <;> ring
  have hbounds : -6039 ≤ signed sign (hours * 60 + minutes) ∧
      signed sign (hours * 60 + minutes) ≤ 6039 := by
    unfold signed
    split <;> omega
  have hours32 : step32 (hours * 60) = .ok (hours * 60 : Int) := step32_eq (by omega)
  have sum32 : step32 (hours * 60 + minutes) = .ok (hours * 60 + minutes : Int) :=
    step32_eq (by omega)
  have signed32 := step32_eq (n := signed sign (hours * 60 + minutes)) (by omega)
  have seconds32 := step32_eq (n := signed sign (hours * 60 + minutes) * 60) (by omega)
  simp only [offsets, bind, Except.bind, hours32, sum32, hsigned, signed32, seconds32]
  rfl

theorem numeral?_eq_some_iff {limit n : Nat} {digits : List Char} :
    numeral? limit digits = some n ↔ digits ≠ [] ∧ (∀ c ∈ digits, c.isDigit = true) ∧
      Text.natOfDigits digits = n ∧ n ≤ limit := by
  simp [numeral?, Option.filter_eq_some_iff, Text.natOfDigits?_eq_some_iff, and_assoc]

theorem isOffset_signed {sign : Option Char} {n : Nat} :
    ZonedTime.isOffset (signed sign n * 60) = true ↔ n < 1440 := by
  simp only [ZonedTime.isOffset, Bool.and_eq_true, decide_eq_true_eq]
  unfold signed
  split <;> omega

section
variable {split : Split} {s : List Char}

theorem natOfDigits_lt_hundred {digits : List Char} (hlength : digits.length = 2)
    (hdigits : ∀ c ∈ digits, c.isDigit = true) : Text.natOfDigits digits < 100 := by
  have h := Text.natOfDigits_lt hdigits
  rwa [hlength] at h

theorem Fits.read_of_isReadable (h : split.Fits s) (hread : split.IsReadable) :
    split.read = .ok (some split.identity) := by
  obtain ⟨hdigits, hseconds, hoffset⟩ := hread
  simp only [List.forall_mem_append] at hdigits
  obtain ⟨hsecondsDigits, hhoursDigits, hminutesDigits⟩ := hdigits
  have hhours := natOfDigits_lt_hundred h.hours_length hhoursDigits
  have hminutes := natOfDigits_lt_hundred h.minutes_length hminutesDigits
  have hmax : ZonedTime.maxSeconds = 8210266876799 := by decide
  have hours32 : numeral? 2147483647 split.hours = some (Text.natOfDigits split.hours) :=
    numeral?_eq_some_iff.2 ⟨List.ne_nil_of_length_pos (by simp [h.hours_length]), hhoursDigits, rfl,
      by omega⟩
  have minutes32 : numeral? 2147483647 split.minutes = some (Text.natOfDigits split.minutes) :=
    numeral?_eq_some_iff.2 ⟨List.ne_nil_of_length_pos (by simp [h.minutes_length]), hminutesDigits,
      rfl, by omega⟩
  have seconds64 : numeral? 9223372036854775807 split.seconds =
      some (Text.natOfDigits split.seconds) :=
    numeral?_eq_some_iff.2 ⟨h.seconds_ne, hsecondsDigits, rfl, by omega⟩
  simp only [read, seconds64, hours32, minutes32, offsets_eq split.sign hhours hminutes, Except.map]
  rw [if_pos ⟨isOffset_signed.2 hoffset, hseconds⟩]
  rfl

theorem Fits.read_of_not_isReadable (h : split.Fits s) (hread : ¬split.IsReadable) :
    split.read = .ok none := by
  unfold read
  split
  · rename_i seconds hours minutes hsecondsRead hhoursRead hminutesRead
    obtain ⟨-, hsecondsDigits, rfl, -⟩ := numeral?_eq_some_iff.1 hsecondsRead
    obtain ⟨-, hhoursDigits, rfl, -⟩ := numeral?_eq_some_iff.1 hhoursRead
    obtain ⟨-, hminutesDigits, rfl, -⟩ := numeral?_eq_some_iff.1 hminutesRead
    have hhours := natOfDigits_lt_hundred h.hours_length hhoursDigits
    have hminutes := natOfDigits_lt_hundred h.minutes_length hminutesDigits
    simp only [offsets_eq split.sign hhours hminutes, Except.map]
    refine congrArg _ (if_neg fun hbounds => hread ⟨?_, hbounds.2, isOffset_signed.1 hbounds.1⟩)
    simp only [List.forall_mem_append]
    exact ⟨hsecondsDigits, hhoursDigits, hminutesDigits⟩
  · rfl

/-! ## What is read -/

theorem Fits.parseParts?_eq (h : split.Fits s) (hname : ¬[' ', '<'] <:+: split.name) :
    parseParts? s = some (split.name, split.email, split.clock) := by
  have hfeed : ¬('\n' ∈ split.name ∨ '\n' ∈ split.email) := not_or.2 ⟨h.name_feed, h.email_feed⟩
  have hfirst := Text.cutAtPair?_append (a := ' ') (b := '<') (by decide) hname
    (split.email ++ '>' :: ' ' :: split.clock)
  have hlast := Text.cutAtLastPair?_append (a := '>') (b := ' ') (by decide) h.not_mem_clock
    split.email
  rw [← text, ← h.text_eq] at hfirst
  simp only [parseParts?, hfirst, Option.bind_eq_bind, Option.bind_some, hlast, if_neg hfeed]

theorem Fits.offsetMinutes?_zone (h : split.Fits s) :
    offsetMinutes? split.zone = (Text.natOfDigits? (split.hours ++ split.minutes)).map fun n =>
      signed split.sign (n / 100 * 60 + n % 100) := by
  obtain ⟨c, d, hhours⟩ := List.length_eq_two.1 h.hours_length
  obtain ⟨e, f, hminutes⟩ := List.length_eq_two.1 h.minutes_length
  have hc := isDecimalDigit_ne (h.isDigit c (by simp [hhours]))
  rw [zone, hhours, hminutes]
  cases hsign : split.sign with
  | none =>
    -- the first digit is no sign
    have hnone : offsetMinutes? [c, d, e, f] =
        (Text.natOfDigits? [c, d, e, f]).map fun n => signed none (n / 100 * 60 + n % 100) := by
      simp [offsetMinutes?, signed, hc.2.2.1, hc.2.2.2]
    exact hnone
  | some sign =>
    rcases h.sign_mem sign hsign with rfl | rfl <;> simp [offsetMinutes?, signed]

theorem Fits.value_zone (h : split.Fits s)
    (hminutes : ∀ c ∈ split.minutes, c.isDigit = true) :
    Text.natOfDigits (split.hours ++ split.minutes) / 100 * 60 +
        Text.natOfDigits (split.hours ++ split.minutes) % 100 =
      Text.natOfDigits split.hours * 60 + Text.natOfDigits split.minutes := by
  have hlt := natOfDigits_lt_hundred h.minutes_length hminutes
  rw [Text.natOfDigits_append, h.minutes_length]
  omega

/-- The split whose name does not hold ` <` is the one that is read. -/
theorem Fits.parse?_eq_some_iff {text : String} {identity : Identity}
    (h : split.Fits text.toList) (hname : ¬[' ', '<'] <:+: split.name) :
    parse? text = some identity ↔ split.IsReadable ∧ split.identity = identity := by
  have hcut : Text.cut? ' ' split.clock = some (split.seconds, split.zone) :=
    Text.cut?_append h.space_not_mem_seconds _
  simp only [parse?, h.parseParts?_eq hname, hcut, h.offsetMinutes?_zone, Option.bind_eq_bind,
    Option.bind_some, Option.pure_def, Option.bind_eq_some_iff, Option.map_eq_some_iff,
    Text.natOfDigits?_eq_some_iff, List.forall_mem_append, timeOf?, Option.ite_none_right_eq_some,
    Option.some.injEq]
  constructor
  · rintro ⟨_, ⟨_, ⟨-, ⟨hhours, hminutes⟩, rfl⟩, rfl⟩, _, ⟨-, hseconds, rfl⟩, _, ⟨⟨hle, hlt⟩, rfl⟩,
      rfl⟩
    have hvalue := h.value_zone hminutes
    rw [hvalue, isOffset_signed] at hlt
    refine ⟨⟨?_, hle, hlt⟩, by rw [identity, offsetMinutes, hvalue]⟩
    simp only [List.forall_mem_append]
    exact ⟨hseconds, hhours, hminutes⟩
  · rintro ⟨⟨hdigits, hle, hlt⟩, rfl⟩
    simp only [List.forall_mem_append] at hdigits
    obtain ⟨hseconds, hhours, hminutes⟩ := hdigits
    have hvalue := h.value_zone hminutes
    have hne : split.hours ++ split.minutes ≠ [] :=
      List.ne_nil_of_length_pos (by simp [h.hours_length])
    refine ⟨_, ⟨_, ⟨hne, ⟨hhours, hminutes⟩, rfl⟩, rfl⟩, _, ⟨h.seconds_ne, hseconds, rfl⟩, _,
      ⟨⟨hle, ?_⟩, rfl⟩, ?_⟩
    · rw [hvalue, isOffset_signed]
      exact hlt
    · rw [hvalue, identity, offsetMinutes]

end

/-! ## What is not read -/

theorem exists_digits_of_offsetMinutes? {zone : List Char} {minutes : Int}
    (h : offsetMinutes? zone = some minutes) :
    ∃ sign : Option Char, ∃ c d e f, zone = sign.toList ++ [c, d, e, f] ∧
      (∀ c ∈ sign, c = '+' ∨ c = '-') ∧ ∀ x ∈ [c, d, e, f], x.isDigit = true := by
  unfold offsetMinutes? at h
  dsimp only at h
  split at h
  · rename_i c d e f hdigits
    obtain ⟨n, hn, -⟩ := Option.map_eq_some_iff.1 h
    rw [hdigits] at hn
    have hall := (Text.natOfDigits?_eq_some_iff.1 hn).2.1
    split at hdigits
    · exact ⟨some '+', c, d, e, f, by rw [hdigits]; rfl, by simp, hall⟩
    · exact ⟨some '-', c, d, e, f, by rw [hdigits]; rfl, by simp, hall⟩
    · exact ⟨none, c, d, e, f, hdigits, by simp, hall⟩
  · cases h

theorem eq_append_of_parseParts? {s name email clock : List Char}
    (h : parseParts? s = some (name, email, clock)) :
    s = name ++ ' ' :: '<' :: (email ++ '>' :: ' ' :: clock) ∧ ¬[' ', '<'] <:+: name ∧
      '\n' ∉ name ∧ '\n' ∉ email := by
  simp only [parseParts?, Option.bind_eq_bind, Option.bind_eq_some_iff] at h
  obtain ⟨⟨name', rest⟩, hfirst, ⟨email', clock'⟩, hlast, hfeed⟩ := h
  obtain ⟨hs, hname⟩ := (Text.cutAtPair?_eq_some_iff (by decide)).1 hfirst
  have hrest := Text.cutAtLastPair?_eq_some hlast
  split at hfeed
  · cases hfeed
  · rename_i hnone
    cases hfeed
    exact ⟨by rw [hs, ← hrest], hname, not_or.1 hnone⟩

/-- What is read was split, behind the first ` <` of the text. -/
theorem exists_fits_of_parse? {text : String} {identity : Identity}
    (h : parse? text = some identity) :
    ∃ split : Split, split.Fits text.toList ∧ ¬[' ', '<'] <:+: split.name := by
  simp only [parse?, Option.bind_eq_bind, Option.bind_eq_some_iff] at h
  obtain ⟨⟨name, email, clock⟩, hparts, ⟨seconds, zone⟩, hclock, minutes, hzone, n, hseconds, -⟩ :=
    h
  obtain ⟨htext, hname, hnameFeed, hemailFeed⟩ := eq_append_of_parseParts? hparts
  obtain ⟨hspace, rfl⟩ := Text.cut?_eq_some_iff.1 hclock
  obtain ⟨sign, c, d, e, f, rfl, hsign, hzoneDigits⟩ := exists_digits_of_offsetMinutes? hzone
  obtain ⟨hne, hsecondsDigits, -⟩ := Text.natOfDigits?_eq_some_iff.1 hseconds
  refine ⟨⟨name, email, seconds, sign, [c, d], [e, f]⟩,
    ⟨htext, hnameFeed, hemailFeed, hne, hsign, rfl, rfl, ?_⟩, hname⟩
  intro x hx
  rcases List.mem_append.1 hx with hx | hx
  · exact Text.isDecimalDigit_of_isDigit (hsecondsDigits x hx)
  · exact Text.isDecimalDigit_of_isDigit (hzoneDigits x hx)

/-- No step of the arithmetic overflows. -/
theorem Fits.exists_read {split : Split} {s : List Char} (h : split.Fits s) :
    ∃ outcome, split.read = .ok outcome := by
  by_cases hread : split.IsReadable
  · exact ⟨_, h.read_of_isReadable hread⟩
  · exact ⟨_, h.read_of_not_isReadable hread⟩

theorem IsChosen.read_eq {split : Split} {text : String} (h : split.IsChosen text.toList) :
    split.read = .ok (parse? text) := by
  have hparse : ∀ identity, parse? text = some identity ↔
      split.IsReadable ∧ split.identity = identity :=
    fun _ => h.1.parse?_eq_some_iff h.not_pair_name
  by_cases hread : split.IsReadable
  · rw [h.1.read_of_isReadable hread, (hparse _).2 ⟨hread, rfl⟩]
  · have hnone : parse? text = none :=
      Option.eq_none_iff_forall_ne_some.2 fun identity hsome => hread ((hparse identity).1 hsome).1
    rw [h.1.read_of_not_isReadable hread, hnone]

end Split

/-! ## The grammar -/

section
variable {text : String}

theorem isSome_parse?_iff :
    (parse? text).isSome ↔ ∃ split : Split, split.Fits text.toList ∧ split.IsReadable := by
  constructor
  · intro h
    obtain ⟨identity, hparse⟩ := Option.isSome_iff_exists.1 h
    obtain ⟨split, hfits, hname⟩ := Split.exists_fits_of_parse? hparse
    exact ⟨split, hfits, ((hfits.parse?_eq_some_iff hname).1 hparse).1⟩
  · rintro ⟨split, hfits, hread⟩
    obtain ⟨first, hfirst, hname, hsame⟩ := hfits.exists_first
    rw [(hfirst.parse?_eq_some_iff hname).2 ⟨hsame.2 hread, rfl⟩]
    rfl

theorem parse?_eq_some_iff {identity : Identity} :
    parse? text = some identity ↔
      ∃ split : Split, split.Fits text.toList ∧ split.IsReadable ∧
        ¬[' ', '<'] <:+: split.name ∧ ¬['>', ' '] <:+: split.clock ∧ split.identity = identity := by
  constructor
  · intro h
    obtain ⟨split, hfits, hname⟩ := Split.exists_fits_of_parse? h
    obtain ⟨hread, hidentity⟩ := (hfits.parse?_eq_some_iff hname).1 h
    have hclock : ¬['>', ' '] <:+: split.clock := fun hpair =>
      hfits.not_mem_clock (hpair.subset (by simp))
    exact ⟨split, hfits, hread, hname, hclock, hidentity⟩
  · rintro ⟨split, hfits, hread, hname, -, hidentity⟩
    exact (hfits.parse?_eq_some_iff hname).2 ⟨hread, hidentity⟩

theorem parse?_eq_none (h : ∀ split : Split, ¬split.IsChosen text.toList) : parse? text = none := by
  refine Option.eq_none_iff_forall_ne_some.2 fun identity hparse => ?_
  obtain ⟨split, hfits, hname⟩ := Split.exists_fits_of_parse? hparse
  exact h split (hfits.isChosen_of_first hname)

end

/-- **The grammar of authors and committers.** A text is read if and only if it can be split so that
the digits, the time and the offset are readable. It is then read as its split at the first ` <` and
the last `> `. No step of the arithmetic overflows on any split of any text, and what is read is
what the arithmetic makes of the split that is found first. -/
theorem parse?_grammar (text : String) :
    ((parse? text).isSome ↔ ∃ split : Split, split.Fits text.toList ∧ split.IsReadable) ∧
    (∀ identity, parse? text = some identity ↔
      ∃ split : Split, split.Fits text.toList ∧ split.IsReadable ∧
        ¬[' ', '<'] <:+: split.name ∧ ¬['>', ' '] <:+: split.clock ∧ split.identity = identity) ∧
    (∀ split : Split, split.Fits text.toList → ∃ outcome, split.read = .ok outcome) ∧
    (∀ split : Split, split.IsChosen text.toList → split.read = .ok (parse? text)) ∧
    ((∀ split : Split, ¬split.IsChosen text.toList) → parse? text = none) :=
  ⟨isSome_parse?_iff, fun _ => parse?_eq_some_iff, fun _ h => h.exists_read, fun _ h => h.read_eq,
    parse?_eq_none⟩

example : (parse? "Bob <the builder> <bob@x.org> 5 -0130").map
    (fun identity => (identity.name, identity.email, identity.offsetMinutes)) =
      some ("Bob", "the builder> <bob@x.org", -90) := by
  decide

end GitReadout.Log.Identity
