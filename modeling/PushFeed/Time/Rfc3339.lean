import PushFeed.Number.Power
import PushFeed.Text.Blank
import PushFeed.Text.Size
import PushFeed.Time.Instant
/-!
# Times in text

Writing an instant as date and time in UTC, and reading one with any offset. The
reader is lenient about blanks before and between the parts and about the
separators; every number is checked as soon as it is read, so the first fault in
the order of the text is the one reported.
-/

namespace PushFeed

/-- Why a text is no time. -/
inductive TimeFault where
  | outOfRange
  | impossible
  | invalid
  | tooShort
  | tooLong
  deriving DecidableEq, Repr

/-- The text of a fault. -/
def TimeFault.message : TimeFault → String
  | .outOfRange => "input is out of range"
  | .impossible => "no possible date and time matching input"
  | .invalid => "input contains invalid characters"
  | .tooShort => "premature end of input"
  | .tooLong => "trailing input"

namespace Instant

/-! ## Writing -/

/-- Digits with zeros before them, up to a width. -/
def zeroPadded (width n : Nat) : List Char :=
  let digits := Nat.toDigits 10 n
  List.replicate (width - digits.length) '0' ++ digits

/-- A year: four digits, or a sign and at least four where that is not enough. -/
def yearText (year : Int) : List Char :=
  if 0 ≤ year ∧ year ≤ 9999 then zeroPadded 4 year.toNat
  else (if year < 0 then '-' else '+') :: zeroPadded 4 year.natAbs

/-- A part of a second in as few groups of three digits as it needs. -/
def fractionText (nanos : Nat) : List Char :=
  if nanos = 0 then []
  else if nanos % 1000000 = 0 then '.' :: zeroPadded 3 (nanos / 1000000)
  else if nanos % 1000 = 0 then '.' :: zeroPadded 6 (nanos / 1000)
  else '.' :: zeroPadded 9 nanos

/-- The instant as date and time in UTC. -/
def text (t : Instant) : List Char :=
  let (year, month, day) := Calendar.dateOf (t.seconds / 86400)
  let (_, _, _, nanos) := t.clock
  yearText year ++ '-' :: twoDigits month ++ '-' :: twoDigits day ++
    'T' :: t.clockText ++ fractionText nanos ++ ['Z']

/-! ## Reading -/

/-- Decimal digits, at least one and at most so many, as a number that stays below
`2 ^ 63`. -/
def scanDigits (most : Nat) (cs : List Char) : Except TimeFault (Nat × List Char) :=
  let digits := (cs.take most).takeWhile Char.isDigit
  if cs.isEmpty then .error .tooShort
  else if digits.isEmpty then .error .invalid
  else
    let n := digits.foldl (fun acc c => acc * 10 + (c.toNat - 48)) 0
    if twoTo 63 ≤ n then .error .outOfRange else .ok (n, cs.drop digits.length)

/-- A number of at most two digits after blanks, in the given range. -/
def scanField (low high : Nat) (cs : List Char) : Except TimeFault (Nat × List Char) := do
  let (n, rest) ← scanDigits 2 (Text.trimStart cs)
  if low ≤ n ∧ n ≤ high then .ok (n, rest) else .error .outOfRange

/-- A separator after blanks. -/
def scanMark (mark : Char) (cs : List Char) : Except TimeFault (List Char) :=
  match Text.trimStart cs with
  | [] => .error .tooShort
  | c :: rest => if c = mark then .ok rest else .error .invalid

/-- A year after blanks: four digits at most, or a sign and any number. -/
def scanYear (cs : List Char) : Except TimeFault (Int × List Char) := do
  let (year, rest) ← match Text.trimStart cs with
    | '-' :: rest => do
      let (n, rest) ← scanDigits rest.length rest
      pure (-(n : Int), rest)
    | '+' :: rest => do
      let (n, rest) ← scanDigits rest.length rest
      pure ((n : Int), rest)
    | cs => do
      let (n, rest) ← scanDigits 4 cs
      pure ((n : Int), rest)
  if -(twoTo 31) ≤ year ∧ year < twoTo 31 then .ok (year, rest) else .error .outOfRange

/-- The billionths of an optional fraction; digits after the ninth are passed over. -/
def scanFraction : List Char → Except TimeFault (Nat × List Char)
  | '.' :: cs => do
    let (n, rest) ← scanDigits 9 cs
    .ok (n * tenTo (9 - (cs.length - rest.length)), rest.dropWhile Char.isDigit)
  | cs => .ok (0, cs)

/-- Whether the text that is left has a second byte. -/
def hasTwoBytes (cs : List Char) : Bool := decide (2 ≤ Text.byteCount cs)

/-- Two digits of an offset, the first of them at most the given one. -/
def scanPair (highest : Char) (beyond : TimeFault) :
    List Char → Except TimeFault (Nat × List Char)
  | a :: b :: rest =>
    if a.isDigit && b.isDigit then
      if a ≤ highest then .ok ((a.toNat - 48) * 10 + (b.toNat - 48), rest) else .error beyond
    else .error .invalid
  | cs => if hasTwoBytes cs then .error .invalid else .error .tooShort

/-- Whether the text starts with the name of UTC, in any case. -/
def startsWithUtc (cs : List Char) : Bool := (cs.take 3).map Char.toUpper == ['U', 'T', 'C']

/-- An offset from UTC in seconds. -/
def scanOffset (cs : List Char) : Except TimeFault (Int × List Char) :=
  if startsWithUtc cs then .ok (0, cs.drop 3)
  else
    match cs with
    | [] => .error .tooShort
    | sign :: rest =>
      if sign = 'Z' ∨ sign = 'z' then .ok (0, rest)
      else if sign = '+' ∨ sign = '-' ∨ sign = '\u2212' then do
        let (hours, rest) ← scanPair '9' .invalid rest
        let rest := rest.dropWhile fun c => c == ':' || Text.isBlank c
        let (minutes, rest) ← scanPair '5' .outOfRange rest
        let seconds : Int := (hours * 3600 + minutes * 60 : Nat)
        .ok (if sign = '+' then seconds else -seconds, rest)
      else .error .invalid

/-- The mark between date and time. -/
def scanBetween : List Char → Except TimeFault (List Char)
  | [] => .error .tooShort
  | c :: rest => if c = 'T' ∨ c = 't' ∨ c = ' ' then .ok rest else .error .invalid

/-- The instant of a local date and time and its offset. -/
def ofLocal (year : Int) (month day hour minute second nanos : Nat) (offset : Int) :
    Except TimeFault Instant :=
  if year < firstYear ∨ lastYear < year ∨ !Calendar.isDay year month day then .error .outOfRange
  else if offset ≤ -86400 ∨ 86400 ≤ offset then .error .outOfRange
  else
    let whole := if second = 60 then 59 else second
    let nanos := if second = 60 then nanos + 1000000000 else nanos
    let seconds := Calendar.dayNumber year month day * 86400 +
      ((hour * 3600 + minute * 60 + whole : Nat) : Int) - offset
    if inRange seconds then .ok ⟨seconds, nanos⟩ else .error .impossible

/-- The instant a text gives. -/
def parse (s : String) : Except TimeFault Instant := do
  let (year, cs) ← scanYear s.toList
  let cs ← scanMark '-' cs
  let (month, cs) ← scanField 1 12 cs
  let cs ← scanMark '-' cs
  let (day, cs) ← scanField 1 31 cs
  let cs ← scanBetween cs
  let (hour, cs) ← scanField 0 23 cs
  let cs ← scanMark ':' cs
  let (minute, cs) ← scanField 0 59 cs
  let cs ← scanMark ':' cs
  let (second, cs) ← scanField 0 60 cs
  let (nanos, cs) ← scanFraction cs
  let (offset, cs) ← scanOffset (Text.trimStart cs)
  if (Text.trimStart cs).isEmpty then
    ofLocal year month day hour minute second nanos offset
  else .error .tooLong

end Instant

end PushFeed
