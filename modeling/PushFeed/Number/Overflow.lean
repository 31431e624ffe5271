/-!
# Overflow

What an arithmetic step reports when its result has no representation. A step
that can overflow returns `Except Overflow`, so no caller can go on with a
wrapped value.
-/

namespace PushFeed

/-- Which arithmetic step had no representable result. -/
inductive Overflow where
  /-- A sum of user counts passed the largest 32-bit number. -/
  | count
  /-- A decimal sum. -/
  | addition
  /-- A decimal difference. -/
  | subtraction
  /-- A decimal product. -/
  | multiplication
  deriving DecidableEq, Repr

/-- The report's text. -/
def Overflow.message : Overflow → String
  | .count => "attempt to add with overflow"
  | .addition => "Addition overflowed"
  | .subtraction => "Subtraction overflowed"
  | .multiplication => "Multiplication overflowed"

end PushFeed
