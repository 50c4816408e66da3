import GitReadout.Log.ZonedTime
import GitReadout.Proofs.Log.Date
import GitReadout.Proofs.Text.Blank
import GitReadout.Proofs.Text.Numeral
import Mathlib.Algebra.GroupWithZero.Nat

/-!
# Times and their texts

A time to the second, on a clock that is whole minutes ahead of or behind UTC, is read back from its
text if the year that its clock shows is one that times may have. Each part of the text ends before
the mark of the next, so the parts are read one after another.

* `number?_append`: digits are read up to what is no digit.
* `year?_yearText`, `offset?_offsetText`: the parts with a sign.
* `ofText?_toText`: the whole text.
-/

set_option autoImplicit false

namespace GitReadout.Log.ZonedTime

open Text (trimStart trimStart_of_not_isBlank natOfDigits twoDigits isBlank isBlank_of_isDigit)

/-- The date that the clock shows. -/
def date (time : ZonedTime) : Date :=
  Date.ofDays ((time.seconds + time.offset) / 86400)

/-- The time has no fraction of a second, and its clock is ahead of UTC, or behind it, by minutes
that make less than a day. -/
structure IsPlain (time : ZonedTime) : Prop where
  nanos : time.nanos = 0
  minutes : time.offset % 60 = 0
  isOffset : isOffset time.offset = true
  seconds : minSeconds ≤ time.seconds ∧ time.seconds ≤ maxSeconds

/-! ## Digits -/

theorem trimStart_twoDigits {n : Nat} (hn : n < 100) (s : List Char) :
    trimStart (twoDigits n ++ s) = twoDigits n ++ s :=
  trimStart_of_not_isBlank (isBlank_of_isDigit (Text.isDigit_digitChar (by omega))) _

theorem number?_append {width : Nat} {digits rest : List Char} (hne : digits ≠ [])
    (hdigits : ∀ c ∈ digits, c.isDigit = true) (hlen : digits.length ≤ width)
    (hrest : digits.length = width ∨ ∀ c ∈ rest.head?, c.isDigit = false) :
    number? width (digits ++ rest) = some (natOfDigits digits, rest) := by
  have htake : ((digits ++ rest).take width).takeWhile Char.isDigit = digits := by
    rw [List.take_append, List.take_of_length_le hlen, List.takeWhile_append_of_pos hdigits]
    rcases hrest with hrest | hrest
    · simp [hrest]
    · cases rest with
      | nil => simp
      | cons c rest =>
        cases width - digits.length with
        | zero => simp
        | succ n => simp [hrest c rfl]
  simp [number?, htake, hne]

theorem number?_twoDigits {n : Nat} (hn : n < 100) (s : List Char) :
    number? 2 (twoDigits n ++ s) = some (n, s) := by
  have hlen : (twoDigits n).length = 2 := rfl
  rw [number?_append (by simp [twoDigits]) (fun c hc => Text.isDigit_of_mem_twoDigits hn hc)
    (Nat.le_of_eq hlen) (.inl hlen), Text.natOfDigits_twoDigits hn]

theorem toList_padded (width n : Nat) : (padded width n).toList =
    List.replicate (width - (Nat.toDigits 10 n).length) '0' ++ Nat.toDigits 10 n :=
  String.toList_ofList

theorem toList_padded_two {n : Nat} (hn : n < 100) : (padded 2 n).toList = twoDigits n := by
  rw [toList_padded]
  by_cases hlt : n < 10
  · rw [Nat.toDigits_of_lt_base hlt, twoDigits, Nat.div_eq_of_lt hlt, Nat.mod_eq_of_lt hlt]
    rfl
  · have hten : n / 10 < 10 := by omega
    rw [Nat.toDigits_of_base_le (by decide) (by omega), Nat.toDigits_of_lt_base hten]
    rfl

theorem isDigit_of_mem_padded {width n : Nat} {c : Char} (hc : c ∈ (padded width n).toList) :
    c.isDigit = true := by
  rw [toList_padded, List.mem_append] at hc
  rcases hc with hc | hc
  · rw [List.eq_of_mem_replicate hc]
    rfl
  · exact Nat.isDigit_of_mem_toDigits (by decide) (by decide) hc

theorem padded_ne_nil (width n : Nat) : (padded width n).toList ≠ [] := by
  rw [toList_padded]
  exact List.append_ne_nil_of_right_ne_nil _ Nat.toDigits_ne_nil

theorem natOfDigits_padded (width n : Nat) : natOfDigits (padded width n).toList = n := by
  rw [toList_padded, Text.natOfDigits_zeros, Text.natOfDigits_toDigits]

theorem length_padded {width n : Nat} (hwidth : 0 < width) (hn : n < 10 ^ width) :
    (padded width n).toList.length = width := by
  have hle := (Nat.length_toDigits_le_iff (by decide) hwidth).2 hn
  rw [toList_padded, List.length_append, List.length_replicate]
  omega

/-! ## Years -/

theorem year?_of_isDigit {c : Char} (h : c.isDigit = true) (s : List Char) :
    year? (c :: s) = (number? 4 (c :: s)).map fun (n, rest) => (n, rest) := by
  unfold year?
  split
  · rename_i heq
    cases heq
    exact absurd h (by decide)
  · rename_i heq
    cases heq
    exact absurd h (by decide)
  · rfl

theorem exists_padded_eq_cons (width n : Nat) : ∃ c s, (padded width n).toList = c :: s ∧
    c.isDigit = true := by
  obtain ⟨c, s, hs⟩ := List.exists_cons_of_ne_nil (padded_ne_nil width n)
  have hc : c ∈ (padded width n).toList := by simp [hs]
  exact ⟨c, s, hs, isDigit_of_mem_padded hc⟩

theorem number?_padded (n : Nat) (rest : List Char) :
    number? ((padded 4 n).toList ++ '-' :: rest).length ((padded 4 n).toList ++ '-' :: rest) =
      some (n, '-' :: rest) := by
  rw [number?_append (padded_ne_nil _ _) (fun c hc => isDigit_of_mem_padded hc) (by simp)
    (.inr (by simp)), natOfDigits_padded]

/-- A year is read back, and no white space stands before it. -/
theorem year?_yearText (year : Int) (rest : List Char) :
    year? (trimStart ((yearText year).toList ++ '-' :: rest)) = some (year, '-' :: rest) := by
  unfold yearText
  split
  · rename_i hyear
    obtain ⟨c, s, hs, hc⟩ := exists_padded_eq_cons 4 year.toNat
    have hdigits : number? 4 ((padded 4 year.toNat).toList ++ '-' :: rest) =
        some (year.toNat, '-' :: rest) := by
      have hlen : (padded 4 year.toNat).toList.length = 4 := length_padded (by decide) (by omega)
      rw [number?_append (padded_ne_nil _ _) (fun c hc => isDigit_of_mem_padded hc)
        (Nat.le_of_eq hlen) (.inl hlen), natOfDigits_padded]
    rw [hs, List.cons_append] at hdigits ⊢
    rw [trimStart_of_not_isBlank (isBlank_of_isDigit hc), year?_of_isDigit hc, hdigits]
    simp only [Option.map_some, Option.some.injEq, Prod.mk.injEq, and_true]
    omega
  · rename_i hyear
    by_cases hneg : year < 0
    · have hcons : ((if year < 0 then "-" else "+") ++ padded 4 year.natAbs).toList =
          '-' :: (padded 4 year.natAbs).toList := by simp [hneg]
      rw [hcons, List.cons_append, trimStart_of_not_isBlank (by decide), year?, number?_padded]
      simp only [Option.map_some, Option.some.injEq, Prod.mk.injEq, and_true]
      omega
    · have hcons : ((if year < 0 then "-" else "+") ++ padded 4 year.natAbs).toList =
          '+' :: (padded 4 year.natAbs).toList := by simp [hneg]
      rw [hcons, List.cons_append, trimStart_of_not_isBlank (by decide), year?, number?_padded]
      simp only [Option.map_some, Option.some.injEq, Prod.mk.injEq, and_true]
      omega

/-! ## Offsets -/

theorem twoDigits?_twoDigits (bound : Nat) {n : Nat} (hbound : n / 10 < bound) (hn : n < 100)
    (s : List Char) : twoDigits? bound (twoDigits n ++ s) = some (n, s) := by
  have hfirst : natOfDigits [Nat.digitChar (n / 10)] = n / 10 := by
    rw [Text.natOfDigits_eq_ofDigitChars, Nat.ofDigitChars_cons_digitChar_of_lt_ten (by omega)]
    simp
  have hboth : natOfDigits [Nat.digitChar (n / 10), Nat.digitChar (n % 10)] = n :=
    Text.natOfDigits_twoDigits hn
  have h1 : (Nat.digitChar (n / 10)).isDigit = true := Text.isDigit_digitChar (by omega)
  have h2 : (Nat.digitChar (n % 10)).isDigit = true := Text.isDigit_digitChar (by omega)
  simp only [twoDigits, List.cons_append, List.nil_append, twoDigits?, h1, h2, hfirst, hbound,
    and_self, if_true, hboth]

theorem offsetDigits?_append {hours minutes : Nat} (hh : hours < 100) (hm : minutes < 60) :
    offsetDigits? (twoDigits hours ++ ':' :: twoDigits minutes) =
      some ((hours * 60 + minutes) * 60, []) := by
  have hdrop : (':' :: twoDigits minutes).dropWhile (fun c => c == ':' || isBlank c) =
      twoDigits minutes := by
    have hdigit := isBlank_of_isDigit (Text.isDigit_digitChar (n := minutes / 10) (by omega))
    have hne : Nat.digitChar (minutes / 10) ≠ ':' := by
      intro h
      have hcolon := Text.isDigit_digitChar (n := minutes / 10) (by omega)
      rw [h] at hcolon
      exact absurd hcolon (by decide)
    simp [twoDigits, hdigit, hne]
  have hhundred : minutes < 100 := by omega
  have hminutes := twoDigits?_twoDigits 6 (by omega) hhundred []
  rw [List.append_nil] at hminutes
  simp [offsetDigits?, twoDigits?_twoDigits 10 (by omega) hh, hdrop, hminutes]

theorem afterUtc?_of_ne {c : Char} (h : c.toUpper ≠ 'U') (s : List Char) :
    afterUtc? (c :: s) = none := by
  unfold afterUtc?
  split
  · rename_i heq
    cases heq
    simp [h]
  · rfl

theorem offset?_plus (s : List Char) :
    offset? ('+' :: s) = (offsetDigits? s).map fun (n, rest) => ((n : Int), rest) := by
  unfold offset?
  rw [afterUtc?_of_ne (by decide)]
  rfl

theorem offset?_minus (s : List Char) :
    offset? ('-' :: s) = (offsetDigits? s).map fun (n, rest) => (-(n : Int), rest) := by
  unfold offset?
  rw [afterUtc?_of_ne (by decide)]
  rfl

theorem offset?_offsetText {offset : Int} (hminutes : offset % 60 = 0)
    (hday : isOffset offset = true) :
    offset? (trimStart (offsetText offset).toList) = some (offset, []) := by
  simp only [isOffset, Bool.and_eq_true, decide_eq_true_eq] at hday
  unfold offsetText
  split
  · rename_i hzero
    rw [hzero]
    rfl
  · obtain ⟨minutes, habs⟩ : ∃ minutes, offset.natAbs = minutes * 60 :=
      ⟨offset.natAbs / 60, by omega⟩
    have hnearest : (offset.natAbs + 30) / 60 = minutes := by omega
    have hdigits : offsetDigits? (twoDigits (minutes / 60) ++ ':' :: twoDigits (minutes % 60)) =
        some ((minutes / 60 * 60 + minutes % 60) * 60, []) :=
      offsetDigits?_append (by omega) (by omega)
    have htext : ∀ sign : String,
        (sign ++ padded 2 (minutes / 60) ++ ":" ++ padded 2 (minutes % 60)).toList =
          sign.toList ++ (twoDigits (minutes / 60) ++ ':' :: twoDigits (minutes % 60)) := by
      intro sign
      simp [toList_padded_two (n := minutes / 60) (by omega),
        toList_padded_two (n := minutes % 60) (by omega)]
    simp only [hnearest, htext]
    by_cases hneg : offset < 0
    · have hsign : (if offset < 0 then "-" else "+" : String).toList = ['-'] := by simp [hneg]
      rw [hsign, List.singleton_append, trimStart_of_not_isBlank (by decide), offset?_minus,
        hdigits]
      simp only [Option.map_some, Option.some.injEq, Prod.mk.injEq, and_true]
      omega
    · have hsign : (if offset < 0 then "-" else "+" : String).toList = ['+'] := by simp [hneg]
      rw [hsign, List.singleton_append, trimStart_of_not_isBlank (by decide), offset?_plus,
        hdigits]
      simp only [Option.map_some, Option.some.injEq, Prod.mk.injEq, and_true]
      omega

/-! ## Times -/

theorem afterMark?_cons (mark : Char) (h : isBlank mark = false) (s : List Char) :
    afterMark? mark (mark :: s) = some s := by
  simp [afterMark?, trimStart_of_not_isBlank h]

theorem fraction?_offsetText (offset : Int) :
    fraction? (offsetText offset).toList = some (0, (offsetText offset).toList) := by
  unfold offsetText
  split
  · rfl
  · by_cases hneg : offset < 0 <;> simp [hneg, fraction?]

/-- A date, a time of day and an offset are read one after another. -/
theorem ofText?_eq_ofClock? {date : Date} {hour minute second : Nat} {offset : Int}
    {text : String} (hmonth : date.month < 100) (hday : date.day < 100) (hhour : hour < 100)
    (hminute : minute < 100) (hsecond : second < 100) (hminutes : offset % 60 = 0)
    (hoffset : isOffset offset = true)
    (htext : text.toList = (yearText date.year).toList ++ '-' :: (twoDigits date.month ++ '-' ::
      (twoDigits date.day ++ 'T' :: (twoDigits hour ++ ':' :: (twoDigits minute ++ ':' ::
        (twoDigits second ++ (offsetText offset).toList)))))) :
    ofText? text = ofClock? date hour minute second 0 offset := by
  have hnil : trimStart [] = [] := rfl
  have hdash (s : List Char) : afterMark? '-' ('-' :: s) = some s :=
    afterMark?_cons '-' (by decide) s
  have hcolon (s : List Char) : afterMark? ':' (':' :: s) = some s :=
    afterMark?_cons ':' (by decide) s
  have hseparator (s : List Char) : afterSeparator? ('T' :: s) = some s := rfl
  -- part by part from the front: a rewriting that goes through all that follows is slow
  rw [ofText?, htext, year?_yearText, Option.bind_eq_bind, Option.bind_some]
  dsimp only
  rw [hdash, Option.bind_eq_bind, Option.bind_some, trimStart_twoDigits hmonth,
    number?_twoDigits hmonth, Option.bind_eq_bind, Option.bind_some]
  rw [hdash, Option.bind_some, trimStart_twoDigits hday, number?_twoDigits hday, Option.bind_some]
  rw [hseparator, Option.bind_some, trimStart_twoDigits hhour, number?_twoDigits hhour,
    Option.bind_some]
  rw [hcolon, Option.bind_some, trimStart_twoDigits hminute, number?_twoDigits hminute,
    Option.bind_some]
  rw [hcolon, Option.bind_some, trimStart_twoDigits hsecond, number?_twoDigits hsecond,
    Option.bind_some]
  rw [fraction?_offsetText, Option.bind_some, offset?_offsetText hminutes hoffset, Option.bind_some,
    if_pos hnil]

/-- A time of day on a date that the calendar has, in a year that times may have, is the time of
that many seconds. -/
theorem ofClock?_eq_some {date : Date} {hour minute second : Nat} {offset seconds : Int}
    (hyear : minYear ≤ date.year ∧ date.year ≤ maxYear) (hvalid : date.isValid = true)
    (hhour : hour < 24) (hminute : minute < 60) (hsecond : second < 60)
    (hoffset : isOffset offset = true)
    (hseconds : minSeconds ≤ seconds ∧ seconds ≤ maxSeconds)
    (heq : date.toDays * 86400 + (hour * 3600 + minute * 60 + second : Nat) = seconds + offset) :
    ofClock? date hour minute second 0 offset = some ⟨seconds, 0, offset⟩ := by
  have hleap : second ≠ 60 := by omega
  have hsum : date.toDays * 86400 + (hour * 3600 + minute * 60 + (second - 0) : Nat) - offset =
      seconds := by omega
  simp only [ofClock?, hleap, if_false, hsum, hyear, hvalid, hhour, hminute, hoffset, hseconds,
    Nat.le_of_lt hsecond, and_self, if_true]

/-- The time that a text gives is the one that was written. -/
theorem ofText?_toText {time : ZonedTime} (h : time.IsPlain)
    (hyear : minYear ≤ time.date.year ∧ time.date.year ≤ maxYear) :
    ofText? time.toText = some time := by
  obtain ⟨seconds, nanos, offset⟩ := time
  obtain ⟨rfl, hminutes, hoffset, hseconds⟩ := h
  dsimp only at hminutes hoffset hseconds
  obtain ⟨date, hdate⟩ : ∃ date, Date.ofDays ((seconds + offset) / 86400) = date := ⟨_, rfl⟩
  obtain ⟨clock, hclock⟩ : ∃ clock : Nat, ((seconds + offset) % 86400).toNat = clock := ⟨_, rfl⟩
  have hdays : date.toDays = (seconds + offset) / 86400 := hdate ▸ Date.toDays_ofDays _
  have hvalid : date.isValid = true := hdate ▸ Date.isValid_ofDays _
  obtain ⟨hmonth, hday⟩ : date.month < 100 ∧ date.day < 100 := Date.lt_of_isValid hvalid
  have htext : (toText ⟨seconds, 0, offset⟩).toList = (yearText date.year).toList ++ '-' ::
      (twoDigits date.month ++ '-' :: (twoDigits date.day ++ 'T' :: (twoDigits (clock / 3600) ++
        ':' :: (twoDigits (clock / 60 % 60) ++ ':' :: (twoDigits (clock % 60) ++
          (offsetText offset).toList))))) := by
    have hfraction : fractionText 0 = "" := rfl
    simp [toText, hdate, hclock, hfraction, toList_padded_two, hmonth, hday,
      toList_padded_two (n := clock / 3600) (by omega),
      toList_padded_two (n := clock / 60 % 60) (by omega),
      toList_padded_two (n := clock % 60) (by omega)]
  rw [ofText?_eq_ofClock? hmonth hday (by omega) (by omega) (by omega) hminutes hoffset htext]
  refine ofClock?_eq_some ?_ hvalid (by omega) (by omega) (by omega) hoffset hseconds ?_
  · rwa [ZonedTime.date, hdate] at hyear
  · rw [hdays]
    omega

end GitReadout.Log.ZonedTime
