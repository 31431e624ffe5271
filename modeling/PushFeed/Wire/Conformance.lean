import PushFeed.Wire.Layout
import PushFeed.Number.Shortest
/-!
# Conforming messages

Amounts have to be finite and not negative, moments not negative, and choices
known. `Layout.violation?` finds the first field that is not so, fields in order
and the items of a list before the next field.
-/

namespace PushFeed.Wire

/-- A step from a message to a part of it. -/
inductive PathStep where
  /-- To the field of a key. -/
  | field (key : String)
  /-- To an item of the list under a key. -/
  | item (key : String) (index : Nat)
  deriving DecidableEq, Repr

/-- The text of a step. -/
def PathStep.text : PathStep → String
  | .field key => key
  | .item key index => key ++ "[" ++ toString index ++ "]"

/-- What is wrong with a value. -/
inductive BadValue where
  /-- An amount that is negative or not finite. -/
  | amount (x : Binary64)
  /-- A negative moment. -/
  | moment (n : Int64)
  /-- A choice that is not known. -/
  | choice (n : Int32)
  deriving DecidableEq

/-- The text for a bad value. -/
def BadValue.text : BadValue → String
  | .amount x => "invalid value " ++ x.text
  | .moment n => "invalid value " ++ toString n.toInt
  | .choice n => "enum value expected, got " ++ toString n.toInt

/-- A bad value and the way to it, from the outermost message in. -/
structure Violation where
  /-- The way to the value. -/
  path : List PathStep
  /-- What is wrong with it. -/
  value : BadValue
  deriving DecidableEq

namespace Violation

/-- The text of a violation. -/
def text (v : Violation) : String :=
  String.intercalate "." (v.path.map PathStep.text) ++ ": " ++ v.value.text

/-- The violation as the message around sees it. -/
def after (step : PathStep) (v : Violation) : Violation := { v with path := step :: v.path }

end Violation

/-- Whether an amount is finite and not negative; the negative zero is no less than
zero. -/
def amountOk (x : Binary64) : Bool := x.isFinite && (!x.negative || x.isZero)

/-- What is wrong with a value of a plain kind. -/
def Scalar.bad? : (s : Scalar) → s.Content → Option BadValue
  | .amount, (x : Binary64) => if amountOk x then none else some (.amount x)
  | .moment, (n : Int64) => if n < 0 then some (.moment n) else none
  | .choice choices, (n : Int32) =>
    if 0 ≤ n.toInt ∧ n.toInt < choices then none else some (.choice n)
  | .count, _ => none
  | .text, _ => none
  | .optionalText, _ => none

/-- The first violation in a list, the items counted from `index`. -/
def firstViolation? {α : Type} (item : α → Option Violation) (key : String) :
    Nat → List α → Option Violation
  | _, [] => none
  | index, a :: rest =>
    match item a with
    | some v => some (v.after (.item key index))
    | none => firstViolation? item key (index + 1) rest

namespace Layout

/-- The first violation in a message. -/
def violation? : (l : Layout) → l.Content → Option Violation
  | .done, _ => none
  | .scalar slot kind rest, (x, more) =>
    match kind.bad? x with
    | some bad => some ⟨[.field slot.key], bad⟩
    | none => rest.violation? more
  | .message slot _ inner rest, (m, more) =>
    match m.bind inner.violation? with
    | some v => some (v.after (.field slot.key))
    | none => rest.violation? more
  | .repeated slot _ inner rest, (ms, more) =>
    match firstViolation? inner.violation? slot.key 0 ms with
    | some v => some v
    | none => rest.violation? more

/-- Refuses a message that does not conform. -/
def verify (l : Layout) (c : l.Content) : Except Violation Unit :=
  match l.violation? c with
  | some v => .error v
  | none => .ok ()

end Layout

end PushFeed.Wire
