import PushFeed.Number.Power
import PushFeed.Number.Rounding
import PushFeed.Number.Overflow
/-!
# Decimal numbers

A `Decimal` is a sign, a whole-number coefficient of at most 96 bits and a scale
of at most 28 places: `coefficient / 10 ^ scale`. The scale is part of the value
(`0.5` and `0.50` print differently) but not of its order. A result that does
not fit loses as few of its last digits as make it fit, rounded half to even,
and overflows when no number of digits is enough.
-/

namespace PushFeed

/-- A decimal number of 96 bits. -/
structure Decimal where
  /-- Whether the sign is minus; zero may carry one. -/
  negative : Bool
  /-- The digits, as a whole number. -/
  coefficient : Nat
  /-- How many of the digits stand after the point. -/
  scale : Nat
  coefficient_lt : coefficient < twoTo 96 := by decide
  scale_le : scale ≤ 28 := by decide
  deriving DecidableEq

namespace Decimal

/-- The number zero. -/
def zero : Decimal := { negative := false, coefficient := 0, scale := 0 }

instance : Inhabited Decimal := ⟨zero⟩

/-- The number with these parts, if they fit. -/
def ofSigned? (negative : Bool) (coefficient scale : Nat) : Option Decimal :=
  if h : coefficient < twoTo 96 ∧ scale ≤ 28 then
    some ⟨negative, coefficient, scale, h.1, h.2⟩
  else none

/-- The number with these parts, if they fit; zero takes a plus sign. -/
def ofParts? (negative : Bool) (coefficient scale : Nat) : Option Decimal :=
  ofSigned? (negative && coefficient != 0) coefficient scale

/-- A whole number of at most 64 bits. -/
def ofInt (n : Int) : Decimal :=
  if h : n.natAbs < twoTo 96 then ⟨n < 0, n.natAbs, 0, h, by decide⟩ else zero

/-- Whether the number is zero, of either sign. -/
def isZero (d : Decimal) : Bool := d.coefficient == 0

/-- The coefficient with its sign. -/
def signed (d : Decimal) : Int := if d.negative then -(d.coefficient : Int) else d.coefficient

/-- Whether one number is at most another, whatever their scales. -/
def le (a b : Decimal) : Bool := decide (a.signed * tenTo b.scale ≤ b.signed * tenTo a.scale)

/-- The number of the given parts after dropping as few digits as make it fit. -/
def fit? (negative : Bool) (coefficient scale : Nat) : Option Decimal :=
  (List.range (scale + 1)).findSome? fun drop =>
    ofParts? negative (divHalfEven coefficient (tenTo drop)) (scale - drop)

/-- The number with the other sign; zero keeps its own. -/
def negate (d : Decimal) : Decimal :=
  if d.isZero then d else { d with negative := !d.negative }

/-- The sum, at the larger of the two scales where it fits. Adding to zero
leaves the other operand as it is. -/
def add? (a b : Decimal) : Option Decimal :=
  if a.isZero then some b
  else if b.isZero then some a
  else
    let scale := max a.scale b.scale
    let sum := a.signed * tenTo (scale - a.scale) + b.signed * tenTo (scale - b.scale)
    fit? (sum < 0) sum.natAbs scale

/-- The difference, or the report that it does not fit. -/
def sub (a b : Decimal) : Except Overflow Decimal :=
  match a.add? b.negate with
  | some d => .ok d
  | none => .error .subtraction

/-- The product, or the report that it does not fit. A product with zero is the
plain zero. -/
def mul (a b : Decimal) : Except Overflow Decimal :=
  if a.isZero || b.isZero then .ok zero
  else
    match fit? (a.negative != b.negative) (a.coefficient * b.coefficient) (a.scale + b.scale) with
    | some d => .ok d
    | none => .error .multiplication

/-- The number rounded to at most so many places, a half going to the even
digit. -/
def roundPlaces (d : Decimal) (places : Nat) : Decimal :=
  if d.scale ≤ places then d
  else (ofParts? d.negative (divHalfEven d.coefficient (tenTo (d.scale - places))) places).getD d

/-- The number without the zeros at the end of its places. -/
def dropPlaces (d : Decimal) : Decimal :=
  if d.isZero then zero
  else
    let zeros := (List.range (d.scale + 1)).foldl
      (fun best k => if d.coefficient % tenTo k == 0 then max best k else best) 0
    (ofParts? d.negative (d.coefficient / tenTo zeros) (d.scale - zeros)).getD d

/-- The digits before and after the point, and the sign. -/
def text (d : Decimal) : String :=
  let digits := Nat.toDigits 10 d.coefficient
  let padded := List.replicate (d.scale + 1 - digits.length) '0' ++ digits
  let whole := padded.take (padded.length - d.scale)
  let places := padded.drop (padded.length - d.scale)
  String.ofList <|
    (if d.negative then ['-'] else []) ++ whole ++ (if places.isEmpty then [] else '.' :: places)

/-- What `ofParts?` makes has the parts it was given. -/
theorem ofParts?_eq_some {negative : Bool} {coefficient scale : Nat} {d : Decimal}
    (h : ofParts? negative coefficient scale = some d) :
    d.coefficient = coefficient ∧ d.scale = scale ∧
      d.negative = (negative && coefficient != 0) := by
  unfold ofParts? ofSigned? at h
  split at h
  · cases h; exact ⟨rfl, rfl, rfl⟩
  · exact absurd h (by simp)

end Decimal

end PushFeed
