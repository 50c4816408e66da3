import GitReadout.Log.Date
import GitReadout.Text.Numeral

/-!
# Times with an offset

A time is a number of seconds since 1970-01-01T00:00:00Z with the offset of the clock on which it
was read. It is written as RFC 3339 has it (`toText`): a zero offset as `Z`, a fraction only when
there is one, a year outside 0 to 9999 with its sign. Reading (`ofText?`) is more generous: white
space may stand around the numbers, which need not have all their digits, and `UTC` stands for `Z`.
-/

set_option autoImplicit false

namespace GitReadout.Log

/-- A point in time and the offset of the clock on which it was read. -/
structure ZonedTime where
  /-- Seconds since 1970-01-01T00:00:00Z. -/
  seconds : Int
  /-- Nanoseconds within the second; a second that lasts two counts on past 10⁹. -/
  nanos : Nat := 0
  /-- Seconds by which the clock is ahead of UTC. -/
  offset : Int
deriving DecidableEq

namespace ZonedTime

/-- The years that times may have. -/
def minYear : Int := -262143

/-- The years that times may have. -/
def maxYear : Int := 262142

/-- The first second that a time may have. -/
def minSeconds : Int := Date.toDays ⟨minYear, 1, 1⟩ * 86400

/-- The last second that a time may have. -/
def maxSeconds : Int := Date.toDays ⟨maxYear, 12, 31⟩ * 86400 + 86399

example : maxSeconds = 8210266876799 := by decide

/-- An offset is less than a day in either direction. -/
def isOffset (offset : Int) : Bool :=
  -86400 < offset && offset < 86400

/-! ## Writing -/

/-- `n` in decimal digits, with zeros in front up to `width`. -/
def padded (width n : Nat) : String :=
  let digits := Nat.toDigits 10 n
  String.ofList (List.replicate (width - digits.length) '0' ++ digits)

/-- A year outside 0 to 9999 has its sign and at least four digits. -/
def yearText (year : Int) : String :=
  if 0 ≤ year ∧ year ≤ 9999 then padded 4 year.toNat
  else (if year < 0 then "-" else "+") ++ padded 4 year.natAbs

/-- The fraction of a second, in three, six or nine digits. -/
def fractionText (nanos : Nat) : String :=
  if nanos = 0 then ""
  else if nanos % 1000000 = 0 then "." ++ padded 3 (nanos / 1000000)
  else if nanos % 1000 = 0 then "." ++ padded 6 (nanos / 1000)
  else "." ++ padded 9 nanos

/-- An offset, to the nearest minute. -/
def offsetText (offset : Int) : String :=
  if offset = 0 then "Z"
  else
    let minutes := (offset.natAbs + 30) / 60
    (if offset < 0 then "-" else "+") ++ padded 2 (minutes / 60) ++ ":" ++ padded 2 (minutes % 60)

/-- The time on its own clock. -/
def toText (time : ZonedTime) : String :=
  let wall := time.seconds + time.offset
  let date := Date.ofDays (wall / 86400)
  let clock := (wall % 86400).toNat
  yearText date.year ++ "-" ++ padded 2 date.month ++ "-" ++ padded 2 date.day ++ "T" ++
    padded 2 (clock / 3600) ++ ":" ++ padded 2 (clock / 60 % 60) ++ ":" ++
    padded 2 (clock % 60 + time.nanos / 1000000000) ++
    fractionText (time.nanos % 1000000000) ++ offsetText time.offset

/-! ## Reading -/

open Text (trimStart natOfDigits)

/-- At most `width` digits, but at least one, and what follows them. -/
def number? (width : Nat) (s : List Char) : Option (Nat × List Char) :=
  let digits := (s.take width).takeWhile Char.isDigit
  if digits = [] then none else some (natOfDigits digits, s.drop digits.length)

/-- A year: at most four digits, or any number of them after a sign. -/
def year? : List Char → Option (Int × List Char)
  | '-' :: s => (number? s.length s).map fun (n, rest) => (-n, rest)
  | '+' :: s => (number? s.length s).map fun (n, rest) => (n, rest)
  | s => (number? 4 s).map fun (n, rest) => (n, rest)

/-- What follows a mark, before which white space may stand. -/
def afterMark? (mark : Char) (s : List Char) : Option (List Char) :=
  match trimStart s with
  | c :: rest => if c = mark then some rest else none
  | [] => none

/-- What follows the letter or space between date and time. -/
def afterSeparator? : List Char → Option (List Char)
  | 't' :: s | 'T' :: s | ' ' :: s => some s
  | _ => none

/-- The fraction of a second in nanoseconds; digits after the ninth count for nothing. -/
def fraction? : List Char → Option (Nat × List Char)
  | '.' :: s =>
    let digits := (s.take 9).takeWhile Char.isDigit
    if digits = [] then none
    else some (natOfDigits digits * Nat.pow 10 (9 - digits.length), s.dropWhile Char.isDigit)
  | s => some (0, s)

/-- Two digits, of which the first is below `bound`. -/
def twoDigits? (bound : Nat) : List Char → Option (Nat × List Char)
  | a :: b :: s =>
    if a.isDigit ∧ b.isDigit ∧ natOfDigits [a] < bound then some (natOfDigits [a, b], s) else none
  | _ => none

/-- Hours and minutes of an offset, between which colons and white space may stand. -/
def offsetDigits? (s : List Char) : Option (Nat × List Char) := do
  let (hours, s) ← twoDigits? 10 s
  let (minutes, s) ← twoDigits? 6 (s.dropWhile fun c => c == ':' || Text.isBlank c)
  return ((hours * 60 + minutes) * 60, s)

/-- Whether a text begins with `UTC` in any case, and what follows. -/
def afterUtc? : List Char → Option (List Char)
  | a :: b :: c :: s => if [a, b, c].map Char.toUpper = ['U', 'T', 'C'] then some s else none
  | _ => none

/-- An offset: `UTC`, `Z`, or a sign and digits. -/
def offset? (s : List Char) : Option (Int × List Char) :=
  match afterUtc? s, s with
  | some rest, _ => some (0, rest)
  | none, 'Z' :: rest | none, 'z' :: rest => some (0, rest)
  | none, '+' :: rest => (offsetDigits? rest).map fun (n, rest) => (n, rest)
  | none, '-' :: rest | none, '\u2212' :: rest =>
    (offsetDigits? rest).map fun (n, rest) => (-n, rest)
  | _, _ => none

/-- The time at which a clock with an offset shows a date and a time of day. Second 60 is the second
half of a second that lasts two. -/
def ofClock? (date : Date) (hour minute second nanos : Nat) (offset : Int) : Option ZonedTime :=
  let leap := if second = 60 then 1 else 0
  let seconds := date.toDays * 86400 + (hour * 3600 + minute * 60 + (second - leap) : Nat) - offset
  if minYear ≤ date.year ∧ date.year ≤ maxYear ∧ date.isValid ∧ hour < 24 ∧ minute < 60 ∧
      second ≤ 60 ∧ isOffset offset ∧ minSeconds ≤ seconds ∧ seconds ≤ maxSeconds then
    some ⟨seconds, nanos + leap * 1000000000, offset⟩
  else none

/-- The time that a text gives. -/
def ofText? (text : String) : Option ZonedTime := do
  let (year, s) ← year? (trimStart text.toList)
  let (month, s) ← number? 2 (trimStart (← afterMark? '-' s))
  let (day, s) ← number? 2 (trimStart (← afterMark? '-' s))
  let (hour, s) ← number? 2 (trimStart (← afterSeparator? s))
  let (minute, s) ← number? 2 (trimStart (← afterMark? ':' s))
  let (second, s) ← number? 2 (trimStart (← afterMark? ':' s))
  let (nanos, s) ← fraction? s
  let (offset, s) ← offset? (trimStart s)
  if trimStart s = [] then ofClock? ⟨year, month, day⟩ hour minute second nanos offset else none

end ZonedTime

end GitReadout.Log
