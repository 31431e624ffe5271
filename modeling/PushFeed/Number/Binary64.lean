import PushFeed.Number.Power
import PushFeed.Number.Rounding
/-!
# Double-precision numbers

A `Binary64` is the 64 bits of an IEEE 754 double. Order, sign and rounding are
defined on the bits with whole-number arithmetic, so that every operation can be
reasoned about; nothing here asks the processor. A finite number is
`mantissa * 2 ^ exponent`, with its sign.
-/

namespace PushFeed

/-- A double-precision number, as its bits. -/
structure Binary64 where
  /-- Sign, eleven bits of exponent, 52 of fraction. -/
  bits : UInt64
  deriving DecidableEq

namespace Binary64

instance : Inhabited Binary64 := ⟨⟨0⟩⟩

/-- The number zero, with a plus sign. -/
def zero : Binary64 := ⟨0⟩

/-- The bits without the sign, read as a number: larger for a larger magnitude. -/
def magnitude (x : Binary64) : Nat := x.bits.toNat % twoTo 63

/-- Whether the sign bit is set. -/
def negative (x : Binary64) : Bool := decide (twoTo 63 ≤ x.bits.toNat)

/-- The magnitude of the infinities. -/
def infiniteMagnitude : Nat := 0x7ff * twoTo 52

/-- Whether this is not a number. -/
def isNaN (x : Binary64) : Bool := decide (infiniteMagnitude < x.magnitude)

/-- Whether this is a number other than the infinities. -/
def isFinite (x : Binary64) : Bool := decide (x.magnitude < infiniteMagnitude)

/-- Whether this is zero, of either sign. -/
def isZero (x : Binary64) : Bool := x.magnitude == 0

/-- The number of the given sign and magnitude. -/
def ofMagnitude (negative : Bool) (magnitude : Nat) : Binary64 :=
  ⟨UInt64.ofNat (magnitude % twoTo 63 + if negative then twoTo 63 else 0)⟩

/-- The number with the other sign. -/
def neg (x : Binary64) : Binary64 := ofMagnitude (!x.negative) x.magnitude

/-- The whole-number mantissa of a finite number, below `2 ^ 53`. -/
def mantissa (x : Binary64) : Nat :=
  if x.magnitude < twoTo 52 then x.magnitude else x.magnitude % twoTo 52 + twoTo 52

/-- The power of two that scales the mantissa of a finite number. -/
def exponent (x : Binary64) : Int :=
  if x.magnitude < twoTo 52 then -1074 else (x.magnitude / twoTo 52 : Nat) - 1075

/-- A key that orders the numbers other than NaN; the two zeros share it. -/
def orderKey (x : Binary64) : Int := if x.negative then -(x.magnitude : Int) else x.magnitude

/-- Whether one number is less than another; never with a NaN. -/
def lt (x y : Binary64) : Bool := !x.isNaN && !y.isNaN && decide (x.orderKey < y.orderKey)

/-- The larger of two numbers, the first of two equal ones; a NaN gives way. -/
def max (x y : Binary64) : Binary64 :=
  if x.isNaN then y else if y.isNaN then x else if x.lt y then y else x

/-- The finite number closest to `num / den * 2 ^ scale`, a half going to the
even mantissa; beyond the largest, infinity. -/
def ofRatio (negative : Bool) (num den : Nat) (scale : Int) : Binary64 :=
  if num = 0 then ofMagnitude negative 0 else
  let low : Int := (Nat.log2 num : Int) - Nat.log2 den - 1 + scale
  -- the value is below `2 ^ (low + 3)` and at least `2 ^ low`
  let mantissaAt (e : Int) : Nat × Nat :=
    if scale ≤ e then (num, den * twoTo (e - scale).toNat) else (num * twoTo (scale - e).toNat, den)
  let fits (e : Int) : Bool := let (n, d) := mantissaAt e; n / d < twoTo 53
  let start := Max.max (low - 52) (-1074)
  let e := if fits start then start else if fits (start + 1) then start + 1 else start + 2
  let (n, d) := mantissaAt e
  let whole := (e + 1074).toNat * twoTo 52 + divHalfEven n d
  ofMagnitude negative (Min.min whole infiniteMagnitude)

/-- The number closest to a whole number. -/
def ofNat (n : Nat) : Binary64 := ofRatio false n 1 0

/-- The number closest to an integer. -/
def ofInt (n : Int) : Binary64 := ofRatio (n < 0) n.natAbs 1 0

/-- The rounded product of two finite numbers. -/
def mul (x y : Binary64) : Binary64 :=
  ofRatio (x.negative != y.negative) (x.mantissa * y.mantissa) 1 (x.exponent + y.exponent)

/-- The rounded quotient of two finite numbers, the second other than zero. -/
def div (x y : Binary64) : Binary64 :=
  ofRatio (x.negative != y.negative) x.mantissa y.mantissa (x.exponent - y.exponent)

/-- The number closest to a power of ten. -/
def tenPow (k : Nat) : Binary64 := ofRatio false (tenTo k) 1 0

end Binary64

end PushFeed
