import PushFeed.Text.Hidden
import PushFeed.Text.Blank
import PushFeed.Url.Punycode
/-!
# Domain names

The ASCII form of a domain: letters are folded to lower case, marks that mean
nothing are dropped, the full stops of other scripts separate labels too, and a
label beyond ASCII is written in Punycode behind `xn--`. A label that comes in that
form is checked by decoding it.
-/

namespace PushFeed.Url

/-- Ranges of capital letters, and how far their small letters are from them. -/
def caseShifts : List (Nat × Nat × Nat) :=
  [(0x41, 0x5a, 32), (0xc0, 0xd6, 32), (0xd8, 0xde, 32), (0x388, 0x38a, 37),
   (0x386, 0x386, 38), (0x38c, 0x38c, 64), (0x38e, 0x38f, 63), (0x391, 0x3a1, 32),
   (0x3a3, 0x3ab, 32), (0x400, 0x40f, 80), (0x410, 0x42f, 32), (0x531, 0x556, 48)]

/-- Ranges in which the capital letters are the even code points, each before its
small letter. -/
def evenCapitals : List (Nat × Nat) :=
  [(0x100, 0x12f), (0x132, 0x137), (0x14a, 0x177), (0x1e00, 0x1e95), (0x460, 0x481),
   (0x48a, 0x4bf), (0x4d0, 0x52f), (0x1ea0, 0x1eff)]

/-- Ranges in which the capital letters are the odd code points. -/
def oddCapitals : List (Nat × Nat) := [(0x139, 0x148), (0x179, 0x17e), (0x4c1, 0x4ce)]

/-- Ranges of marks that a domain drops. -/
def droppedMarks : List (Nat × Nat) :=
  [(0xad, 0xad), (0x34f, 0x34f), (0x180b, 0x180d), (0x200b, 0x200b), (0x2060, 0x2060),
   (0x2064, 0x2064), (0xfe00, 0xfe0f), (0xfeff, 0xfeff)]

/-- Full stops that are no ASCII period. -/
def fullStops : List Nat := [0x3002, 0xff0e, 0xff61]

/-- A code point in lower case. -/
def foldCase (n : Nat) : Nat :=
  match caseShifts.find? fun r => r.1 ≤ n && n ≤ r.2.1 with
  | some r => n + r.2.2
  | none =>
    if Text.inRanges evenCapitals n then (if n % 2 = 0 then n + 1 else n)
    else if Text.inRanges oddCapitals n then (if n % 2 = 1 then n + 1 else n)
    else if n = 0x178 then 0xff
    else n

/-- What a character of a domain stands for. -/
def foldChar (c : Char) : List Char :=
  let n := c.toNat
  if Text.inRanges droppedMarks n then []
  else if fullStops.contains n then ['.']
  else if 0xff01 ≤ n ∧ n ≤ 0xff5e then [Char.ofNat (foldCase (n - 0xfee0))]
  else if n = 0xa0 ∨ n = 0x3000 then [' ']
  else [Char.ofNat (foldCase n)]

/-- ASCII characters that no domain holds, controls and the space apart. -/
def forbiddenInDomain : List Char :=
  ['%', '#', '/', ':', '<', '>', '?', '@', '[', '\\', ']', '^', '|']

/-- Whether a domain may hold a character, as far as ASCII goes. -/
def asciiAllowed (c : Char) : Bool :=
  decide (32 < c.toNat) && c.toNat != 127 && !forbiddenInDomain.contains c

/-- Whether a character beyond ASCII cannot be shown by itself, and extends none
before it. -/
def isUnfit (c : Char) : Bool :=
  decide (128 ≤ c.toNat) && (Text.isBlank c || decide (c.toNat < 0xa0) ||
    decide (0xe000 ≤ c.toNat ∧ c.toNat < 0xf900) || decide (0xf0000 ≤ c.toNat) ||
    decide (0xfff0 ≤ c.toNat ∧ c.toNat ≤ 0xffff) || decide (0x200e ≤ c.toNat ∧ c.toNat ≤ 0x202f))

/-- Whether a character extends the one before it. -/
def isMark (c : Char) : Bool := decide (0x300 ≤ c.toNat ∧ c.toNat ≤ 0x36f)

/-- Whether every character of a label may stand in one. -/
def labelOk (label : List Char) : Bool :=
  label.all (fun c => asciiAllowed c && !isUnfit c) && !(label.head?.any isMark)

/-- The mark before a label in Punycode. -/
def punycodeMark : List Char := ['x', 'n', '-', '-']

/-- The ASCII form of a label. -/
def labelText? (label : List Char) : Option (List Char) :=
  match punycodeMark.isPrefixOf? label with
  | some tail =>
    match Punycode.decode? tail with
    | some decoded =>
      if decoded.all (fun c => decide (c.toNat < 128)) || !labelOk decoded ||
          decoded.flatMap foldChar != decoded then none
      else some label
    | none => none
  | none =>
    if !labelOk label then none
    else if label.all fun c => decide (c.toNat < 128) then some label
    else some (punycodeMark ++ Punycode.encode label)

/-- The labels of a domain. -/
def splitLabels : List Char → List (List Char)
  | [] => [[]]
  | '.' :: rest => [] :: splitLabels rest
  | c :: rest =>
    match splitLabels rest with
    | [] => [[c]]
    | label :: more => (c :: label) :: more

/-- Labels with a period between each two. -/
def joinLabels : List (List Char) → List Char
  | [] => []
  | [label] => label
  | label :: more => label ++ '.' :: joinLabels more

/-- The ASCII form of a domain. -/
def domainText? (domain : List Char) : Option (List Char) :=
  ((splitLabels (domain.flatMap foldChar)).mapM labelText?).map joinLabels

end PushFeed.Url
