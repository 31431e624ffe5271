import PushFeed.Wire.Field
/-!
# Percent encoding

A byte of a URL part that may not stand as it is, is written as a percent sign and
two hexadecimal digits. Which bytes those are differs by part; characters beyond
ASCII always are.
-/

namespace PushFeed.Url

/-- ASCII characters that a part may not hold, the controls apart. -/
structure Reserved where
  /-- The characters. -/
  chars : List Char

namespace Reserved

/-- None but the controls. -/
def controls : Reserved := ⟨[]⟩

/-- Of a fragment. -/
def fragment : Reserved := ⟨[' ', '"', '<', '>', '\x60']⟩

/-- Of a path. -/
def path : Reserved := ⟨fragment.chars ++ ['#', '?', '\x7b', '\x7d']⟩

/-- Of a user name and password. -/
def userInfo : Reserved :=
  ⟨path.chars ++ ['/', ':', ';', '=', '@', '[', '\\', ']', '^', '|']⟩

/-- Of a query. -/
def query : Reserved := ⟨[' ', '"', '#', '<', '>', '\'']⟩

end Reserved

/-- A hexadecimal digit in upper case. -/
def upperHexDigit (n : Nat) : Char := if n < 10 then Char.ofNat (48 + n) else Char.ofNat (55 + n)

/-- A byte as it is written where it may not stand as it is. -/
def escapedByte (b : UInt8) : List Char :=
  ['%', upperHexDigit (b.toNat / 16), upperHexDigit (b.toNat % 16)]

/-- A character as a part writes it. -/
def encodedChar (r : Reserved) (c : Char) : List Char :=
  if c.toNat < 32 ∨ 127 ≤ c.toNat ∨ r.chars.contains c then
    (Wire.utf8 c.toString).flatMap escapedByte
  else [c]

/-- A text as a part writes it. -/
def encoded (r : Reserved) (cs : List Char) : List Char := cs.flatMap (encodedChar r)

/-- The value of a hexadecimal digit. -/
def hexDigit? (c : Char) : Option Nat :=
  if '0' ≤ c ∧ c ≤ '9' then some (c.toNat - 48)
  else if 'a' ≤ c ∧ c ≤ 'f' then some (c.toNat - 87)
  else if 'A' ≤ c ∧ c ≤ 'F' then some (c.toNat - 55)
  else none

/-- The byte of two hexadecimal digits. -/
def hexPair? (a b : Char) : Option UInt8 :=
  match hexDigit? a, hexDigit? b with
  | some a, some b => some (UInt8.ofNat (a * 16 + b))
  | _, _ => none

/-- The bytes of a text with its escapes resolved; a percent sign that starts no
escape stands for itself. -/
def decodedBytes : List Char → Wire.Bytes
  | [] => []
  | '%' :: a :: b :: rest =>
    match hexPair? a b with
    | some byte => byte :: decodedBytes rest
    | none => 37 :: decodedBytes (a :: b :: rest)
  | c :: rest => Wire.utf8 c.toString ++ decodedBytes rest

end PushFeed.Url
