import PushFeed.Json.Basic
import PushFeed.Text.Quoted
/-!
# Writing JSON

JSON text without blanks. In a text only the quote, the backslash and the
controls below the space are escaped.
-/

namespace PushFeed.Json

/-- One character as it stands in a JSON text. -/
def escapedChar (c : Char) : List Char :=
  match c with
  | '"' => ['\\', '"']
  | '\\' => ['\\', '\\']
  | '\x08' => ['\\', 'b']
  | '\x0c' => ['\\', 'f']
  | '\n' => ['\\', 'n']
  | '\r' => ['\\', 'r']
  | '\t' => ['\\', 't']
  | _ =>
    if c.toNat < 16 then ['\\', 'u', '0', '0', '0'] ++ Text.hexDigits c.toNat
    else if c.toNat < 32 then ['\\', 'u', '0', '0'] ++ Text.hexDigits c.toNat
    else [c]

/-- A text as JSON writes it. -/
def stringText (s : String) : List Char := '"' :: (s.toList.flatMap escapedChar ++ ['"'])

/-- Pieces with a comma between each two. -/
def commaSeparated : List (List Char) → List Char
  | [] => []
  | [piece] => piece
  | piece :: rest => piece ++ ',' :: commaSeparated rest

/-- Named pieces between braces. -/
def objectText (entries : List (String × List Char)) : List Char :=
  '\x7b' :: (commaSeparated (entries.map fun e => stringText e.1 ++ ':' :: e.2) ++ ['\x7d'])

/-- Pieces between brackets. -/
def listText (items : List (List Char)) : List Char := '[' :: (commaSeparated items ++ [']'])

end PushFeed.Json
