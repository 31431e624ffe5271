import PushFeed.Time.Calendar
/-!
# Instants

A point in time as seconds of the Unix epoch and the part of a second after them.
A leap second is the second before it with a part of one second or more. Instants
reach over the years from -262143 to 262142.
-/

namespace PushFeed

/-- A point in time. -/
structure Instant where
  /-- Whole seconds since the beginning of 1970. -/
  seconds : Int
  /-- Billionths of a second after them, below two billions. -/
  nanos : Nat
  deriving DecidableEq, Repr

namespace Instant

/-- The first year. -/
def firstYear : Int := -262143

/-- The last year. -/
def lastYear : Int := 262142

/-- The first second of the first year. -/
def firstSecond : Int := -8334601228800

/-- The last second of the last year. -/
def lastSecond : Int := 8210266876799

/-- Whether a number of seconds is within the years there are. -/
def inRange (seconds : Int) : Bool := decide (firstSecond ≤ seconds ∧ seconds ≤ lastSecond)

/-- The instant of a number of seconds, if there is one. -/
def ofSeconds? (seconds : Int) : Option Instant :=
  if inRange seconds then some ⟨seconds, 0⟩ else none

/-- Two decimal digits of a number below a hundred. -/
def twoDigits (n : Nat) : List Char :=
  (if n < 10 then ['0'] else []) ++ Nat.toDigits 10 n

/-- Hour, minute and second of the day, the second 60 in a leap second, and the
billionths after it. -/
def clock (t : Instant) : Nat × Nat × Nat × Nat :=
  let ofDay := (t.seconds % 86400).toNat
  let second := ofDay % 60
  if t.nanos < 1000000000 then (ofDay / 3600, ofDay / 60 % 60, second, t.nanos)
  else (ofDay / 3600, ofDay / 60 % 60, second + 1, t.nanos - 1000000000)

/-- The time of day, as hours, minutes and seconds. -/
def clockText (t : Instant) : List Char :=
  let (hour, minute, second, _) := t.clock
  twoDigits hour ++ ':' :: twoDigits minute ++ ':' :: twoDigits second

example : Calendar.dayNumber firstYear 1 1 * 86400 = firstSecond := by decide

example : Calendar.dayNumber lastYear 12 31 * 86400 + 86399 = lastSecond := by decide

end Instant

end PushFeed
