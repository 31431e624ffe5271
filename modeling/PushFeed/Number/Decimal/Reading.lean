import PushFeed.Number.Power
import PushFeed.Number.Decimal
/-!
# Reading decimals

The accepted forms: an optional sign, digits with at most one point, underscores
after the first digit. Digits past 28 places or past 96 bits after the point end
the reading: the first of them rounds, the rest is not looked at. Where the plain
form fails, a number with an exponent is tried.
-/

namespace PushFeed.Decimal

/-- The value of a decimal digit. -/
def digit? (c : Char) : Option Nat :=
  if '0' ≤ c ∧ c ≤ '9' then some (c.toNat - 48) else none

/-- What has been read of a number. -/
structure Leading where
  /-- The digits so far. -/
  coefficient : Nat
  /-- How many of them stand after the point. -/
  scale : Nat
  /-- Whether the point has been read. -/
  point : Bool
  /-- Whether a digit has been read. -/
  started : Bool

/-- The number read so far, if it has a digit. -/
def Leading.finish? (negative : Bool) (p : Leading) : Option Decimal :=
  if p.started then ofParts? negative p.coefficient p.scale else none

/-- The number read so far, rounded by the character after it: a digit of five or
more rounds up. A number that then passes 96 bits loses a place. -/
def Leading.round? (negative : Bool) (p : Leading) (next : Char) : Option Decimal :=
  let first? := if next = '_' ∨ (next = '.' ∧ p.point) then some 0 else digit? next
  first?.bind fun d =>
    if d < 5 then ofParts? negative p.coefficient p.scale
    else if p.coefficient + 1 < twoTo 96 then ofParts? negative (p.coefficient + 1) p.scale
    else if p.scale = 0 then none
    else ofParts? negative ((p.coefficient + 5) / 10) (p.scale - 1)

/-- Coefficients from this one on are read with underscores skipped also at the
place where rounding decides. -/
def wideFrom : Nat := 1844674407370954906

/-- Reads the characters after the sign. -/
def readDigits? (negative : Bool) : Leading → List Char → Option Decimal
  | p, [] => p.finish? negative
  | p, c :: cs =>
    if p.point && decide (28 ≤ p.scale) then
      if c = '_' ∧ wideFrom ≤ p.coefficient then
        match cs with
        | [] => p.finish? negative
        | next :: _ => p.round? negative next
      else p.round? negative c
    else
      match digit? c with
      | some d =>
        let next := p.coefficient * 10 + d
        if next < twoTo 96 then
          readDigits? negative
            { p with coefficient := next, scale := if p.point then p.scale + 1 else 0,
                     started := true } cs
        else if p.point then p.round? negative c
        else none
      | none =>
        if c = '.' ∧ !p.point then readDigits? negative { p with point := true } cs
        else if c = '_' ∧ p.started then readDigits? negative p cs
        else none

/-- Reads a number without an exponent. -/
def readPlain? (cs : List Char) : Option Decimal :=
  let start : Leading := ⟨0, 0, false, false⟩
  match cs with
  | '-' :: rest => readDigits? true start rest
  | '+' :: rest => readDigits? false start rest
  | _ => readDigits? false start cs

/-- A number of at most 32 bits, with an optional plus sign. -/
def readExponent? (cs : List Char) : Option Nat :=
  let digits := match cs with | '+' :: rest => rest | _ => cs
  if digits.isEmpty then none
  else
    (digits.mapM digit?).bind fun ds =>
      let n := ds.foldl (fun acc d => acc * 10 + d) 0
      if n < twoTo 32 then some n else none

/-- The number moved by a power of ten of at most 28. Down, places are added; up,
they are taken away first, and what is left multiplies the digits. -/
def shift? (d : Decimal) (down : Bool) (places : Nat) : Option Decimal :=
  if down then
    if h : places ≤ 28 ∧ d.scale + places ≤ 28 then
      some { d with scale := d.scale + places, scale_le := h.2 }
    else none
  else if places ≤ d.scale then
    some { d with scale := d.scale - places, scale_le := Nat.le_trans (Nat.sub_le _ _) d.scale_le }
  else if 28 < places then none
  else
    let factors := if 19 ≤ places then [tenTo 19, tenTo (places - 19)] else [tenTo places]
    let times (acc : Decimal) (factor : Nat) : Option Decimal := (acc.mul (ofInt factor)).toOption
    let scaled? := factors.foldlM times d
    scaled?.map dropPlaces

/-- Reads a number with an exponent after `e` or `E`. -/
def readScientific? (cs : List Char) : Option Decimal :=
  let isMark := fun c => c == 'e' || c == 'E'
  match cs.dropWhile (fun c => !isMark c) with
  | [] => none
  | _ :: exponent =>
    (readPlain? (cs.takeWhile fun c => !isMark c)).bind fun base =>
      match exponent with
      | '-' :: places => (readExponent? places).bind (base.shift? true)
      | places => (readExponent? places).bind (base.shift? false)

/-- Reads a decimal number, with or without an exponent. -/
def parse? (s : String) : Option Decimal :=
  (readPlain? s.toList).orElse fun _ => readScientific? s.toList

end PushFeed.Decimal
