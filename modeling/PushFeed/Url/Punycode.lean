import PushFeed.Number.Power
/-!
# Punycode

Labels of a domain beyond ASCII, written in ASCII. The basic characters come first;
then, for every other character in the order of code points, a number that says how
far to go on in the list of all insertions, in digits to the base 36 with thresholds
that adapt to what came before.
-/

namespace PushFeed.Url.Punycode

/-- The digit of a value below 36. -/
def digit (n : Nat) : Char := if n < 26 then Char.ofNat (97 + n) else Char.ofNat (22 + n)

/-- The value of a digit in lower case. -/
def digitValue? (c : Char) : Option Nat :=
  if 'a' ≤ c ∧ c ≤ 'z' then some (c.toNat - 97)
  else if '0' ≤ c ∧ c ≤ '9' then some (c.toNat - 22)
  else none

/-- The threshold of a digit at a place. -/
def threshold (place bias : Nat) : Nat :=
  if place ≤ bias then 1 else if bias + 26 ≤ place then 26 else place - bias

/-- Divides a step until it is at most 455, in at most so many divisions; the result
and 36 for each division. -/
def shrink : Nat → Nat → Nat × Nat
  | 0, step => (step, 0)
  | fuel + 1, step =>
    if 455 < step then
      let (step, places) := shrink fuel (step / 35)
      (step, places + 36)
    else (step, 0)

/-- The bias after a step, with so many characters written. -/
def adapt (step count : Nat) (first : Bool) : Nat :=
  let step := if first then step / 700 else step / 2
  let (step, places) := shrink 64 (step + step / count)
  places + 36 * step / (step + 38)

/-- The digits of a number from a place on, in at most so many. -/
def numberText (bias : Nat) : Nat → Nat → Nat → List Char
  | 0, _, _ => []
  | fuel + 1, place, n =>
    let t := threshold place bias
    if n < t then [digit n]
    else digit (t + (n - t) % (36 - t)) ::
      numberText bias fuel (place + 36) ((n - t) / (36 - t))

/-- Where writing a label stands. -/
structure Writing where
  /-- How far the list of insertions has been passed since the last one. -/
  step : Nat
  /-- The bias of the next number. -/
  bias : Nat
  /-- How many characters have been written. -/
  count : Nat
  /-- Whether no character beyond ASCII has been written. -/
  first : Bool
  /-- The text so far. -/
  text : List Char

/-- Passes one character of the label while those of the code point `current` are
written. -/
def passChar (current : Nat) (w : Writing) (c : Char) : Writing :=
  if c.toNat < current then { w with step := w.step + 1 }
  else if c.toNat = current then
    { step := 0, bias := adapt w.step (w.count + 1) w.first, count := w.count + 1,
      first := false, text := w.text ++ numberText w.bias 64 36 w.step }
  else w

/-- Writes the characters of the given code points, which are in increasing order
and at least `next`. -/
def writeFrom (label : List Char) : Nat → List Nat → Writing → List Char
  | _, [], w => w.text
  | next, current :: more, w =>
    let w := { w with step := w.step + (current - next) * (w.count + 1) }
    let w := label.foldl (passChar current) w
    writeFrom label (current + 1) more { w with step := w.step + 1 }

/-- A label in ASCII, without the mark before it. -/
def encode (label : List Char) : List Char :=
  let basic := label.filter fun c => c.toNat < 128
  let others := ((label.filter fun c => 128 ≤ c.toNat).map Char.toNat).mergeSort (· ≤ ·)
  let head := if basic.isEmpty then [] else basic ++ ['-']
  writeFrom label 128 others.eraseDups ⟨0, 72, basic.length, true, head⟩

/-- Reads a number: its value and the rest of the text. -/
def readNumber? (bias : Nat) : Nat → Nat → Nat → List Char → Option (Nat × List Char)
  | _, _, _, [] => none
  | place, weight, n, c :: rest =>
    (digitValue? c).bind fun d =>
      let n := n + d * weight
      let t := threshold place bias
      if twoTo 32 ≤ n then none
      else if d < t then some (n, rest)
      else readNumber? bias (place + 36) (weight * (36 - t)) n rest

/-- Puts a character at a place of a list. -/
def insertAt (c : Char) : Nat → List Char → List Char
  | 0, cs => c :: cs
  | _ + 1, [] => [c]
  | n + 1, d :: cs => d :: insertAt c n cs

/-- Reads insertions until the text ends, in at most so many steps. -/
def readFrom? : Nat → Nat → Nat → Nat → Bool → List Char → List Char → Option (List Char)
  | 0, _, _, _, _, label, _ => some label
  | _ + 1, _, _, _, _, label, [] => some label
  | fuel + 1, code, place, bias, first, label, rest =>
    (readNumber? bias 36 1 0 rest).bind fun (n, rest) =>
      let count := label.length + 1
      let code := code + (place + n) / count
      let place := (place + n) % count
      if code < 0xd800 ∨ (0xdfff < code ∧ code < 0x110000) then
        readFrom? fuel code (place + 1) (adapt n count first) false
          (insertAt (Char.ofNat code) place label) rest
      else none

/-- The label of a text in ASCII, without the mark before it. -/
def decode? (text : List Char) : Option (List Char) :=
  let tail := (text.reverse.takeWhile (· != '-')).reverse
  let basic := text.take (text.length - tail.length - 1)
  if basic.isEmpty then readFrom? (text.length + 1) 128 0 72 true [] text
  else readFrom? (tail.length + 1) 128 0 72 true basic tail

example : encode "bücher".toList = "bcher-kva".toList := by cbv

example : decode? "bcher-kva".toList = some "bücher".toList := by decide +kernel

end PushFeed.Url.Punycode
