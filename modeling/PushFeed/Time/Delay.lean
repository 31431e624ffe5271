import PushFeed.Number.Power
/-!
# Delays

The base delay between attempts to reconnect, in whole milliseconds. Moments are
counted in milliseconds as well; a moment that a clock of 64 bits of seconds cannot
reach has no deadline.
-/

namespace PushFeed

/-- A length of time in whole milliseconds. -/
structure Delay where
  /-- How many milliseconds. -/
  milliseconds : UInt64
  deriving DecidableEq, Repr

namespace Delay

/-- The thousandths of a second after its point, without zeros at the end. -/
def fractionText (thousandths : Nat) : List Char :=
  if thousandths = 0 then []
  else
    let digits := Nat.toDigits 10 (1000 + thousandths)
    '.' :: ((digits.drop 1).reverse.dropWhile (· == '0')).reverse

/-- The delay as the log shows it: nothing in billionths, less than a second in
thousandths, and all else in seconds. -/
def text (d : Delay) : String :=
  let ms := d.milliseconds.toNat
  if ms = 0 then "0ns"
  else if ms < 1000 then toString ms ++ "ms"
  else toString (ms / 1000) ++ String.ofList (fractionText (ms % 1000)) ++ "s"

/-- The moment a number of delays after another moment. A count of more than 32
bits, a span of more than 64 bits of seconds and a moment past 63 bits of seconds
have none. -/
def deadline? (d : Delay) (start count : Nat) : Option Nat :=
  let span := d.milliseconds.toNat * count
  if count < twoTo 32 ∧ span / 1000 < twoTo 64 ∧ (start + span) / 1000 < twoTo 63 then
    some (start + span)
  else none

/-- A deadline there is lies its delays after the start. -/
theorem eq_add_of_deadline? {d : Delay} {start count t : Nat}
    (h : d.deadline? start count = some t) : t = start + d.milliseconds.toNat * count := by
  simp only [deadline?] at h
  split at h
  · exact (Option.some.inj h).symm
  · cases h

end Delay

end PushFeed
