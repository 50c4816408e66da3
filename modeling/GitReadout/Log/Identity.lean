import GitReadout.Log.ZonedTime
import GitReadout.Text.Split

/-!
# Authors and committers

The log writes who made a commit and when as `name <email> seconds offset`. The name ends at the
first ` <` and the email at the last `> `, so either may hold what looks like the end of the other;
neither may hold a line feed. The offset is hours and minutes, ahead of UTC unless a minus sign
stands before it.
-/

set_option autoImplicit false

namespace GitReadout.Log

/-- Who made a commit, and when. -/
structure Identity where
  name : String
  email : String
  date : ZonedTime
  /-- Minutes by which the clock was ahead of UTC. -/
  offsetMinutes : Int
deriving DecidableEq

namespace Identity

/-- An offset in minutes: a sign, which may be missing, then two digits of hours and two of
minutes. -/
def offsetMinutes? (zone : List Char) : Option Int :=
  let digits := match zone with
    | '+' :: digits | '-' :: digits => digits
    | digits => digits
  match digits with
  | [_, _, _, _] =>
    (Text.natOfDigits? digits).map fun n =>
      let minutes : Nat := n / 100 * 60 + n % 100
      if zone.head? = some '-' then -(minutes : Int) else (minutes : Int)
  | _ => none

/-- The time that seconds and an offset in minutes give, if there is one. -/
def timeOf? (seconds : Nat) (minutes : Int) : Option ZonedTime :=
  if (seconds : Int) ≤ ZonedTime.maxSeconds ∧ ZonedTime.isOffset (minutes * 60) then
    some { seconds, offset := minutes * 60 }
  else none

/-- The name, the email and what follows them. -/
def parseParts? (text : List Char) : Option (List Char × List Char × List Char) := do
  let (name, rest) ← Text.cutAtPair? ' ' '<' text
  let (email, clock) ← Text.cutAtLastPair? '>' ' ' rest
  if '\n' ∈ name ∨ '\n' ∈ email then none else some (name, email, clock)

/-- Reads an author or committer. -/
def parse? (text : String) : Option Identity := do
  let (name, email, clock) ← parseParts? text.toList
  let (digits, zone) ← Text.cut? ' ' clock
  let offsetMinutes ← offsetMinutes? zone
  let date ← timeOf? (← Text.natOfDigits? digits) offsetMinutes
  return { name := String.ofList name, email := String.ofList email, date, offsetMinutes }

/-- Seconds since 1970-01-01T00:00:00Z. -/
def timestamp (identity : Identity) : Int :=
  identity.date.seconds

end Identity

end GitReadout.Log
