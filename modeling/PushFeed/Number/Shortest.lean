import PushFeed.Number.Power
import PushFeed.Number.Binary64
/-!
# Shortest decimal text of a double

The fewest decimal digits that read back as the same number, and of those the
nearest to it. `Binary64.shortest` finds them by trying ever finer decimal
grids; `Binary64.text` writes them out without an exponent, and
`Binary64.scientificText` with one where the number is very large or small.
-/

namespace PushFeed.Binary64

/-- A nonzero finite number and the ends of the interval that rounds to it, all
as numerators over one denominator. -/
structure Neighbourhood where
  /-- Numerator of the number itself. -/
  value : Nat
  /-- Numerator of the lower end. -/
  low : Nat
  /-- Numerator of the upper end. -/
  high : Nat
  /-- The common denominator. -/
  den : Nat
  /-- Whether the ends themselves round to the number. -/
  closed : Bool

/-- The interval that rounds to a number: half a unit on either side, but only a
quarter below a power of two. The ends belong to it iff the mantissa is even. -/
def neighbourhood (x : Binary64) : Neighbourhood :=
  let m := x.mantissa
  let e := x.exponent - 2
  let below := if m = twoTo 52 ∧ x.exponent ≠ -1074 then 1 else 2
  let up := twoTo e.toNat
  { value := 4 * m * up, low := (4 * m - below) * up, high := (4 * m + 2) * up,
    den := twoTo (-e).toNat, closed := m % 2 == 0 }

namespace Neighbourhood

/-- Whether `digits * 10 ^ k` reads back as the number. -/
def holds (n : Neighbourhood) (digits : Nat) (k : Int) : Bool :=
  let point := digits * tenTo k.toNat * n.den
  let scale := tenTo (-k).toNat
  if n.closed then n.low * scale ≤ point && point ≤ n.high * scale
  else n.low * scale < point && point < n.high * scale

/-- The point of the grid `10 ^ k` that reads back as the number, the nearer of
two and the upper of two equally near ones. -/
def onGrid? (n : Neighbourhood) (k : Int) : Option Nat :=
  let num := n.value * tenTo (-k).toNat
  let den := n.den * tenTo k.toNat
  let down := num / den
  let up := down + 1
  match n.holds down k, n.holds up k with
  | true, true => some (if 2 * (num % den) < den then down else up)
  | true, false => some down
  | false, true => some up
  | false, false => none

/-- The first of the grids `10 ^ k`, `10 ^ (k - 1)`, … with a point that reads
back, among the given number of them. -/
def firstGrid (n : Neighbourhood) : Nat → Int → Nat × Int
  | 0, k => (n.value * tenTo (-k).toNat / (n.den * tenTo k.toNat), k)
  | count + 1, k =>
    match n.onGrid? k with
    | some digits => (digits, k)
    | none => n.firstGrid count (k - 1)

end Neighbourhood

/-- A power of ten above the number, from the length of its bits. -/
def coarsestGrid (n : Neighbourhood) : Int :=
  ((Nat.log2 n.value : Int) - Nat.log2 n.den + 1) * 30103 / 100000 + 1

/-- The fewest digits, read as a number, and the power of ten that scales them,
for a nonzero finite number. -/
def shortest (x : Binary64) : Nat × Int :=
  let n := x.neighbourhood
  n.firstGrid 22 (coarsestGrid n)

/-- A number without the zeros at its end, and how many there were. -/
def dropZeros : Nat → Nat → Nat × Nat
  | 0, n => (n, 0)
  | fuel + 1, n =>
    if n ≠ 0 ∧ n % 10 = 0 then let (m, k) := dropZeros fuel (n / 10); (m, k + 1) else (n, 0)

/-- The digits of a number in decimal. -/
def decimalDigits (n : Nat) : List Char := Nat.toDigits 10 n

/-- The significant digits and the power of ten of the last of them. -/
def significant (x : Binary64) : List Char × Int :=
  let (d, k) := x.shortest
  let (d, z) := dropZeros 400 d
  (decimalDigits d, k + z)

/-- Digits scaled by a power of ten, written out in full. -/
def positional (digits : List Char) (k : Int) : List Char :=
  if 0 ≤ k then digits ++ List.replicate k.toNat '0'
  else
    let places := (-k).toNat
    if places < digits.length then
      digits.take (digits.length - places) ++ '.' :: digits.drop (digits.length - places)
    else '0' :: '.' :: (List.replicate (places - digits.length) '0' ++ digits)

/-- The sign, for a negative number. -/
def signText (x : Binary64) : List Char := if x.negative then ['-'] else []

/-- The number written out in full, with no exponent and no needless point. -/
def text (x : Binary64) : String :=
  if x.isNaN then "NaN"
  else if !x.isFinite then String.ofList (x.signText ++ ['i', 'n', 'f'])
  else if x.isZero then String.ofList (x.signText ++ ['0'])
  else
    let (digits, k) := x.significant
    String.ofList (x.signText ++ positional digits k)

/-- Where the point stands in a number of that many digits and last power:
written in full from `10 ^ -5` up to below `10 ^ 16`, else with an exponent. -/
def scientificText (x : Binary64) : String :=
  if x.isNaN then "NaN"
  else if !x.isFinite then String.ofList (x.signText ++ ['i', 'n', 'f'])
  else if x.isZero then String.ofList (x.signText ++ ['0', '.', '0'])
  else
    let (digits, k) := x.significant
    let lead := k + digits.length - 1
    String.ofList <| x.signText ++
      if -5 ≤ lead ∧ lead < 16 then
        if 0 ≤ k then positional digits k ++ ['.', '0'] else positional digits k
      else
        digits.take 1 ++ (if digits.length = 1 then [] else '.' :: digits.drop 1) ++
          'e' :: (if lead < 0 then '-' else '+') :: decimalDigits lead.natAbs

end PushFeed.Binary64
