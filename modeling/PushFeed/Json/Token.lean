import PushFeed.Number.Power
import PushFeed.Json.Fault
import PushFeed.Text.Size
/-!
# Tokens of JSON text

Reading blanks, literal names, strings and numbers at the start of a text. Each
reader gives what it read and the rest of the text.
-/

namespace PushFeed.Json

/-- The text without the blanks at its start. -/
def skipBlanks (cs : List Char) : List Char :=
  cs.dropWhile fun c => c == ' ' || c == '\n' || c == '\t' || c == '\r'

/-- The rest of a literal name such as `null`. -/
def readName : List Char → List Char → Except Malformed (List Char)
  | [], cs => .ok cs
  | _ :: _, [] => .error .endInValue
  | n :: ns, c :: cs => if n = c then readName ns cs else .error .expectedIdent

/-- The value of a hexadecimal digit. -/
def hexValue? (c : Char) : Option Nat :=
  if '0' ≤ c ∧ c ≤ '9' then some (c.toNat - 48)
  else if 'a' ≤ c ∧ c ≤ 'f' then some (c.toNat - 87)
  else if 'A' ≤ c ∧ c ≤ 'F' then some (c.toNat - 55)
  else none

/-- The code unit of four hexadecimal digits. With fewer than four bytes left the
text has ended. -/
def readHex (cs : List Char) : Except Malformed (Nat × List Char) :=
  match cs with
  | a :: b :: c :: d :: rest =>
    match hexValue? a, hexValue? b, hexValue? c, hexValue? d with
    | some a, some b, some c, some d => .ok (((a * 16 + b) * 16 + c) * 16 + d, rest)
    | _, _, _, _ => .error .invalidEscape
  | _ => if 4 ≤ Text.byteCount cs then .error .invalidEscape else .error .endInString

/-- The character of an escape that is one letter. -/
def escapeLetter? : Char → Option Char
  | '"' => some '"'
  | '\\' => some '\\'
  | '/' => some '/'
  | 'b' => some '\x08'
  | 'f' => some '\x0c'
  | 'n' => some '\n'
  | 'r' => some '\r'
  | 't' => some '\t'
  | _ => none

/-- The second half of a pair of surrogates, and the character of the pair. -/
def readLowSurrogate (high : Nat) : List Char → Except Malformed (Char × List Char)
  | [] => .error .endInString
  | '\\' :: [] => .error .endInString
  | '\\' :: 'u' :: cs => do
    let (low, rest) ← readHex cs
    if low < 0xdc00 ∨ 0xdfff < low then .error .loneSurrogate
    else .ok (Char.ofNat ((high - 0xd800) * 0x400 + (low - 0xdc00) + 0x10000), rest)
  | _ => .error .unfinishedSurrogate

/-- The character of an escape, after its backslash. -/
def readEscape : List Char → Except Malformed (Char × List Char)
  | [] => .error .endInString
  | 'u' :: cs => do
    let (unit, rest) ← readHex cs
    if 0xdc00 ≤ unit ∧ unit ≤ 0xdfff then .error .loneSurrogate
    else if 0xd800 ≤ unit ∧ unit ≤ 0xdbff then readLowSurrogate unit rest
    else .ok (Char.ofNat unit, rest)
  | c :: cs =>
    match escapeLetter? c with
    | some d => .ok (d, cs)
    | none => .error .invalidEscape

/-- The characters up to the closing quote, in at most so many steps. -/
def readCharsWithin : Nat → List Char → Except Malformed (List Char × List Char)
  | 0, _ => .error .endInString
  | _ + 1, [] => .error .endInString
  | _ + 1, '"' :: cs => .ok ([], cs)
  | fuel + 1, '\\' :: cs => do
    let (c, rest) ← readEscape cs
    let (more, rest) ← readCharsWithin fuel rest
    .ok (c :: more, rest)
  | fuel + 1, c :: cs =>
    if c.toNat < 0x20 then .error .controlInString
    else do
      let (more, rest) ← readCharsWithin fuel cs
      .ok (c :: more, rest)

/-- A string, after its opening quote. Each step reads at least one character, so
the text's length bounds their number. -/
def readString (cs : List Char) : Except Malformed (String × List Char) := do
  let (chars, rest) ← readCharsWithin (cs.length + 1) cs
  .ok (String.ofList chars, rest)

/-- Passes over a string, after its opening quote, in at most so many steps.
Surrogates need no partner here. -/
def skipCharsWithin : Nat → List Char → Except Malformed (List Char)
  | 0, _ => .error .endInString
  | _ + 1, [] => .error .endInString
  | _ + 1, '"' :: cs => .ok cs
  | _ + 1, ['\\'] => .error .endInString
  | fuel + 1, '\\' :: 'u' :: cs => do
    let (_, rest) ← readHex cs
    skipCharsWithin fuel rest
  | fuel + 1, '\\' :: c :: cs =>
    if (escapeLetter? c).isSome then skipCharsWithin fuel cs else .error .invalidEscape
  | fuel + 1, c :: cs =>
    if c.toNat < 0x20 then .error .controlInString else skipCharsWithin fuel cs

/-- Passes over a string, after its opening quote. -/
def skipString (cs : List Char) : Except Malformed (List Char) :=
  skipCharsWithin (cs.length + 1) cs

/-- The value of a decimal digit. -/
def digitValue? (c : Char) : Option Nat :=
  if '0' ≤ c ∧ c ≤ '9' then some (c.toNat - 48) else none

/-- Whether a text starts with a decimal digit. -/
def startsWithDigit : List Char → Bool
  | [] => false
  | c :: _ => (digitValue? c).isSome

/-- The text without the decimal digits at its start. -/
def skipDigits (cs : List Char) : List Char := cs.dropWhile fun c => (digitValue? c).isSome

/-- How many decimal digits a text starts with. -/
def countDigits (cs : List Char) : Nat := (cs.takeWhile fun c => (digitValue? c).isSome).length

/-- Digits of a significand of at most 64 bits, added to the ones read before: the
significand, how many were added, and the rest, which starts with a digit only if
that digit does not fit. -/
def addDigits (significand added : Nat) : List Char → Nat × Nat × List Char
  | [] => (significand, added, [])
  | c :: cs =>
    match digitValue? c with
    | none => (significand, added, c :: cs)
    | some d =>
      if twoTo 64 ≤ significand * 10 + d then (significand, added, c :: cs)
      else addDigits (significand * 10 + d) (added + 1) cs

/-- A double scaled by a power of ten, by one multiplication or division by the
double nearest to that power where there is one. -/
def scaleByTen : Nat → Binary64 → Int → Except Malformed Binary64
  | 0, f, _ => .ok f
  | fuel + 1, f, power =>
    if power.natAbs ≤ 308 then
      if 0 ≤ power then
        let product := f.mul (Binary64.tenPow power.toNat)
        if product.isFinite then .ok product else .error .numberOutOfRange
      else .ok (f.div (Binary64.tenPow power.natAbs))
    else if f.isZero then .ok f
    else if 0 ≤ power then .error .numberOutOfRange
    else scaleByTen fuel (f.div (Binary64.tenPow 308)) (power + 308)

/-- The double of a significand scaled by a power of ten. Eight divisions are
enough to bring any significand to zero. -/
def double (negative : Bool) (significand : Nat) (power : Int) : Except Malformed Binary64 := do
  let f ← scaleByTen 8 (Binary64.ofNat significand) power
  .ok (if negative then f.neg else f)

/-- A number from its exponent on; the text starts with `e` or `E`. -/
def readPower (negative : Bool) (significand : Nat) (power : Int) (cs : List Char) :
    Except Malformed (Binary64 × List Char) :=
  let cs := cs.drop 1
  let down := cs.head? == some '-'
  let digits := if down || cs.head? == some '+' then cs.drop 1 else cs
  match digits with
  | [] => .error .endInValue
  | c :: _ =>
    if (digitValue? c).isNone then .error .invalidNumber
    else
      let read := digits.takeWhile fun c => (digitValue? c).isSome
      let rest := skipDigits digits
      let n := read.foldl (fun acc c => acc * 10 + (digitValue? c).getD 0) 0
      if twoTo 31 ≤ n then
        if significand ≠ 0 ∧ !down then .error .numberOutOfRange
        else .ok (Binary64.ofMagnitude negative 0, rest)
      else do
        let f ← double negative significand (if down then power - n else power + n)
        .ok (f, rest)

/-- A number after its significand and fraction. -/
def readAfterFraction (negative : Bool) (significand : Nat) (power : Int) (cs : List Char) :
    Except Malformed (Binary64 × List Char) :=
  match cs with
  | 'e' :: _ | 'E' :: _ => readPower negative significand power cs
  | _ => do
    let f ← double negative significand power
    .ok (f, cs)

/-- A number from its point on. Digits that do not fit the significand are passed
over. -/
def readFraction (negative : Bool) (significand : Nat) (power : Int) (cs : List Char) :
    Except Malformed (Binary64 × List Char) :=
  let (significand, added, rest) := addDigits significand 0 (cs.drop 1)
  if startsWithDigit rest then
    readAfterFraction negative significand (power - added) (skipDigits rest)
  else if added = 0 then .error (if rest.isEmpty then .endInValue else .invalidNumber)
  else readAfterFraction negative significand (power - added) rest

/-- A number after its whole digits, with what was read of them. -/
def readAfterWhole (negative : Bool) (significand : Nat) (cs : List Char) :
    Except Malformed (JsonNumber × List Char) := do
  match cs with
  | '.' :: _ =>
    let (f, rest) ← readFraction negative significand 0 cs
    .ok (.double f, rest)
  | 'e' :: _ | 'E' :: _ =>
    let (f, rest) ← readPower negative significand 0 cs
    .ok (.double f, rest)
  | _ =>
    if !negative then .ok (.natural (UInt64.ofNat significand), cs)
    else if significand = 0 ∨ twoTo 63 < significand then
      .ok (.double (Binary64.ofNat significand).neg, cs)
    else .ok (.integer (Int64.ofInt (-(significand : Int))), cs)

/-- A number whose whole digits pass 64 bits; the digits left count as a power of
ten. -/
def readLongWhole (negative : Bool) (significand : Nat) (cs : List Char) :
    Except Malformed (JsonNumber × List Char) := do
  let power := countDigits cs
  let rest := skipDigits cs
  let (f, rest) ← match rest with
    | '.' :: _ => readFraction negative significand power rest
    | _ => readAfterFraction negative significand power rest
  .ok (.double f, rest)

/-- A number, after its sign. -/
def readNumber (negative : Bool) (cs : List Char) : Except Malformed (JsonNumber × List Char) :=
  match cs with
  | [] => .error .endInValue
  | '0' :: rest =>
    if startsWithDigit rest then .error .invalidNumber else readAfterWhole negative 0 rest
  | c :: _ =>
    if (digitValue? c).isNone then .error .invalidNumber
    else
      let (significand, _, rest) := addDigits 0 0 cs
      if startsWithDigit rest then readLongWhole negative significand rest
      else readAfterWhole negative significand rest

/-- Passes over an exponent; the text starts with `e` or `E`. -/
def skipPower (cs : List Char) : Except Malformed (List Char) :=
  let cs := cs.drop 1
  let digits := if cs.head? == some '-' || cs.head? == some '+' then cs.drop 1 else cs
  if startsWithDigit digits then .ok (skipDigits digits) else .error .invalidNumber

/-- Passes over a number after its whole digits. -/
def skipAfterWhole (cs : List Char) : Except Malformed (List Char) :=
  match cs with
  | '.' :: rest =>
    if !startsWithDigit rest then .error .invalidNumber
    else
      match skipDigits rest with
      | 'e' :: more => skipPower ('e' :: more)
      | 'E' :: more => skipPower ('E' :: more)
      | more => .ok more
  | 'e' :: _ | 'E' :: _ => skipPower cs
  | _ => .ok cs

/-- Passes over a number, after its sign. -/
def skipNumber (cs : List Char) : Except Malformed (List Char) :=
  match cs with
  | '0' :: rest => if startsWithDigit rest then .error .invalidNumber else skipAfterWhole rest
  | _ =>
    if startsWithDigit cs then skipAfterWhole (skipDigits cs) else .error .invalidNumber

end PushFeed.Json
