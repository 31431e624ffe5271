/-!
# Whole numbers in settings

Reads a whole number up to a limit from decimal digits, with a plus sign before
them if one likes. The digits are gone through from the left, and the first fault
met is the one reported.
-/

namespace PushFeed

/-- Why a text is no whole number within its limit. -/
inductive WholeFault where
  | empty
  | invalidDigit
  | tooLarge
  deriving DecidableEq, Repr

/-- The fault's text. -/
def WholeFault.message : WholeFault → String
  | .empty => "cannot parse integer from empty string"
  | .invalidDigit => "invalid digit found in string"
  | .tooLarge => "number too large to fit in target type"

/-- Goes on with a number after some of its digits. -/
def readDigits (limit : Nat) : Nat → List Char → Except WholeFault Nat
  | value, [] => .ok value
  | value, c :: rest =>
    if !c.isDigit then .error .invalidDigit
    else
      let value := value * 10 + (c.toNat - 48)
      if limit < value then .error .tooLarge else readDigits limit value rest

/-- Reads a whole number of at most the limit. -/
def readWhole (limit : Nat) : List Char → Except WholeFault Nat
  | [] => .error .empty
  | ['+'] => .error .invalidDigit
  | '+' :: digits => readDigits limit 0 digits
  | digits => readDigits limit 0 digits

end PushFeed
