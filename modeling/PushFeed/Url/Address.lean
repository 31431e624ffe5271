import PushFeed.Number.Power
import PushFeed.Url.Encoding
/-!
# Numeric hosts

Addresses of four bytes, written in up to four numbers of base 8, 10 or 16, and
addresses of eight pieces in hexadecimal, of which one run of zeros may be left out.
-/

namespace PushFeed.Url

/-- The parts of a text between periods. -/
def splitDots : List Char → List (List Char)
  | [] => [[]]
  | '.' :: rest => [] :: splitDots rest
  | c :: rest =>
    match splitDots rest with
    | [] => [[c]]
    | part :: more => (c :: part) :: more

/-- The value of digits to a base. -/
def digitsValue (base : Nat) (cs : List Char) : Option Nat :=
  cs.foldlM (fun acc c =>
    (hexDigit? c).bind fun d => if d < base then some (acc * base + d) else none) 0

/-- The value of a number of an address: hexadecimal behind `0x`, octal behind
another zero. -/
def addressNumber? : List Char → Option Nat
  | [] => none
  | '0' :: 'x' :: rest => digitsValue 16 rest
  | '0' :: 'X' :: rest => digitsValue 16 rest
  | '0' :: c :: rest => digitsValue 8 (c :: rest)
  | cs => digitsValue 10 cs

/-- Whether the last part of a domain, an empty one apart, is a number. -/
def endsInNumber (domain : List Char) : Bool :=
  match (splitDots domain).reverse with
  | [] => false
  | [] :: [] => false
  | [] :: last :: _ => isNumber last
  | last :: _ => isNumber last
where
  /-- Whether a part is a number, or at least digits. -/
  isNumber (part : List Char) : Bool :=
    (!part.isEmpty && part.all Char.isDigit) || (addressNumber? part).isSome

/-- The address of four bytes that a domain of numbers stands for. The last number
fills the bytes that are left. -/
def ipv4? (domain : List Char) : Option Nat :=
  let parts := splitDots domain
  let parts := if parts.getLast? = some [] then parts.dropLast else parts
  if 4 < parts.length then none
  else
    (parts.mapM addressNumber?).bind fun numbers =>
      match numbers.getLast? with
      | none => none
      | some last =>
        let heads := numbers.dropLast
        if bytesTo (4 - heads.length) ≤ last ∨ heads.any (255 < ·) then none
        else some (heads.zipIdx.foldl (fun sum (n, i) => sum + n * bytesTo (3 - i)) last)

/-- Four bytes with periods between them. -/
def ipv4Text (n : Nat) : List Char :=
  let byte (i : Nat) := Nat.toDigits 10 (n / bytesTo i % 256)
  byte 3 ++ '.' :: byte 2 ++ '.' :: byte 1 ++ '.' :: byte 0

/-- Four decimal numbers of one byte with periods between them, without leading
zeros. -/
def dottedBytes? (cs : List Char) : Option (List Nat) :=
  let parts := splitDots cs
  if parts.length ≠ 4 then none
  else parts.mapM fun part =>
    if part.isEmpty ∨ !part.all Char.isDigit ∨ (1 < part.length ∧ part.head? = some '0') then none
    else (digitsValue 10 part).bind fun n => if n < 256 then some n else none

/-- Pieces read so far, and where the run of zeros stands that was left out. -/
structure Pieces where
  /-- The pieces in order. -/
  values : List Nat
  /-- How many pieces stand before the run. -/
  gap : Option Nat

/-- The pieces of an address, in at most so many steps. -/
def readPieces? : Nat → Pieces → List Char → Option Pieces
  | _, p, [] => some p
  | 0, _, _ => none
  | fuel + 1, p, c :: rest =>
    if 8 ≤ p.values.length then none
    else if c = ':' then
      if p.gap.isSome then none
      else readPieces? fuel ⟨p.values ++ [0], some (p.values.length + 1)⟩ rest
    else
      let cs := c :: rest
      let digits := (cs.take 4).takeWhile fun c => (hexDigit? c).isSome
      let value := (digitsValue 16 digits).getD 0
      match cs.drop digits.length with
      | [] => some { p with values := p.values ++ [value] }
      | ':' :: [] => none
      | ':' :: more => readPieces? fuel { p with values := p.values ++ [value] } more
      | '.' :: _ =>
        if digits.isEmpty ∨ 6 < p.values.length then none
        else
          match dottedBytes? cs with
          | some [a, b, c, d] =>
            some { p with values := p.values ++ [a * 256 + b, c * 256 + d] }
          | _ => none
      | _ => none

/-- All eight pieces of an address, with the zeros of the run. -/
def Pieces.fill? (p : Pieces) : Option (List Nat) :=
  match p.gap with
  | none => if p.values.length = 8 then some p.values else none
  | some gap =>
    if 8 < p.values.length then none
    else some (p.values.take gap ++ List.replicate (8 - p.values.length) 0 ++ p.values.drop gap)

/-- The address of eight pieces that a text stands for. -/
def ipv6? (cs : List Char) : Option (List Nat) :=
  match cs with
  | ':' :: ':' :: rest => (readPieces? (rest.length + 1) ⟨[0], some 1⟩ rest).bind Pieces.fill?
  | ':' :: _ => none
  | [] => none
  | [_] => none
  | _ => (readPieces? (cs.length + 1) ⟨[], none⟩ cs).bind Pieces.fill?

/-- How many zeros a list starts with. -/
def leadingZeros (pieces : List Nat) : Nat := (pieces.takeWhile (· == 0)).length

/-- Start and length of the first of the longest runs of at least two zeros. -/
def longestRun (pieces : List Nat) : Option (Nat × Nat) :=
  (List.range pieces.length).foldl (fun best i =>
    let run := leadingZeros (pieces.drop i)
    match best with
    | none => if 2 ≤ run then some (i, run) else none
    | some (_, length) => if length < run then some (i, run) else best) none

/-- Pieces with colons between them. -/
def piecesText : List Nat → List Char
  | [] => []
  | [piece] => Nat.toDigits 16 piece
  | piece :: more => Nat.toDigits 16 piece ++ ':' :: piecesText more

/-- Eight pieces with their longest run of zeros left out. -/
def ipv6Text (pieces : List Nat) : List Char :=
  match longestRun pieces with
  | none => piecesText pieces
  | some (start, length) =>
    piecesText (pieces.take start) ++ ':' :: ':' :: piecesText (pieces.drop (start + length))

example : ipv6Text [0, 0, 0, 0, 0, 0, 0, 1] = "::1".toList := by cbv

end PushFeed.Url
