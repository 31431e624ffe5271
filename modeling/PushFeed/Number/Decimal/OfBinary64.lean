import PushFeed.Number.Power
import PushFeed.Number.Binary64
import PushFeed.Number.Decimal
/-!
# Decimal value of a double

`Decimal.ofBinary64?` turns a finite double into a decimal of at most 52 bits of
fraction digits. It moves the power of two into a power of ten one step at a
time, dropping the last bit or digit when the working number would pass 96 bits,
so the result is close to the double and exact where the double has few digits.
-/

namespace PushFeed.Decimal

/-- A working number `digits * 10 ^ tens`. -/
structure Working where
  /-- The whole-number part. -/
  digits : Nat
  /-- The power of ten. -/
  tens : Int

/-- Moves one division by two into the power of ten: halves an even number, else
multiplies by five, or drops the last bit where that passes 96 bits. -/
def halve (w : Working) : Working :=
  if w.digits % 2 = 0 then ⟨w.digits / 2, w.tens + 1⟩
  else if w.digits * 5 < twoTo 96 then ⟨w.digits * 5, w.tens⟩
  else ⟨w.digits / 2, w.tens + 1⟩

/-- Moves so many divisions by two. -/
def halveTimes : Nat → Working → Working
  | 0, w => w
  | n + 1, w => halveTimes n (halve w)

/-- Moves one multiplication by two, of `left` that remain, into the power of
ten: doubles where 96 bits allow it, else divides by five. -/
def double? (left : Nat) (w : Working) : Option Working :=
  if w.digits < twoTo 95 then some ⟨w.digits * 2, w.tens - 1⟩
  else if (left : Int) < 2 * w.tens then none
  else some ⟨w.digits / 5, w.tens⟩

/-- Moves so many multiplications by two. -/
def doubleTimes? : Nat → Working → Option Working
  | 0, w => some w
  | n + 1, w => (double? (n + 1) w).bind (doubleTimes? n)

/-- Turns a positive power of ten into digits, within 96 bits. -/
def unscale? : Nat → Nat → Option Nat
  | 0, digits => some digits
  | n + 1, digits => if digits * 10 < twoTo 96 then unscale? n (digits * 10) else none

/-- The number without its last digit, rounded half up. -/
def dropDigit (n : Nat) : Nat := if 5 ≤ n % 10 then n / 10 + 1 else n / 10

/-- Drops digits until the scale is at most 28; a number that vanishes has scale
zero. -/
def capScale : Nat → Nat → Nat → Nat × Nat
  | 0, digits, scale => (digits, scale)
  | fuel + 1, digits, scale =>
    if 28 < scale then
      if digits / 10 = 0 then (0, 0) else capScale fuel (dropDigit digits) (scale - 1)
    else (digits, scale)

/-- Drops places while the number has more than 52 bits. -/
def capDigits : Nat → Nat → Nat × Nat
  | digits, 0 => (digits, 0)
  | digits, scale + 1 =>
    if twoTo 52 ≤ digits then capDigits (dropDigit digits) scale else (digits, scale + 1)

/-- Drops places that are zero. -/
def trimPlaces : Nat → Nat → Nat × Nat
  | digits, 0 => (digits, 0)
  | digits, scale + 1 =>
    if digits % 10 = 0 then trimPlaces (digits / 10) scale else (digits, scale + 1)

/-- The power of two of a double moved into a power of ten. -/
def working? (x : Binary64) : Option Working :=
  let w : Working := ⟨x.mantissa, x.exponent⟩
  if x.exponent < 0 then some (halveTimes (-x.exponent).toNat w)
  else doubleTimes? x.exponent.toNat w

/-- Digits and scale of a working number. -/
def places? (w : Working) : Option (Nat × Nat) :=
  if 0 < w.tens then (unscale? w.tens.toNat w.digits).map (·, 0)
  else
    let scale := (-w.tens).toNat
    let (digits, scale) := capScale scale w.digits scale
    let (digits, scale) := capDigits digits scale
    some (trimPlaces digits scale)

/-- The decimal value of a double: none for NaN, the infinities and numbers past
96 bits. The sign is kept, also on zero. -/
def ofBinary64? (x : Binary64) : Option Decimal :=
  if !x.isFinite then none
  else
    ((working? x).bind places?).bind fun (coefficient, scale) =>
      ofSigned? x.negative coefficient scale

end PushFeed.Decimal
