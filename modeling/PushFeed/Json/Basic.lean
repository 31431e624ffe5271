import PushFeed.Number.Binary64
/-!
# JSON values

A number is a whole number of 64 bits, with or without sign, or a double: which
of the three decides what a reader accepts. An object is a list of entries; the
values this library builds have their keys in increasing order, each once.
-/

namespace PushFeed

/-- A JSON number, by the way it was written. -/
inductive JsonNumber where
  /-- A whole number that is not negative. -/
  | natural (n : UInt64)
  /-- A negative whole number. -/
  | integer (n : Int64)
  /-- A number with a fraction or an exponent, or one too long for 64 bits. -/
  | double (d : Binary64)
  deriving DecidableEq

/-- A JSON value. -/
inductive Json where
  /-- The empty value. -/
  | null
  /-- A truth value. -/
  | bool (b : Bool)
  /-- A number. -/
  | num (n : JsonNumber)
  /-- A text. -/
  | str (s : String)
  /-- A list of values. -/
  | arr (items : List Json)
  /-- Named values, in their order. -/
  | obj (entries : List (String × Json))

namespace Json

instance : Inhabited Json := ⟨.null⟩

/-- The number of a 32-bit count. -/
def ofUInt32 (n : UInt32) : Json := .num (.natural n.toUInt64)

/-- The number of a signed 64-bit integer. -/
def ofInt64 (n : Int64) : Json :=
  .num (if n < 0 then .integer n else .natural n.toUInt64)

/-- The number of a signed 32-bit integer. -/
def ofInt32 (n : Int32) : Json := ofInt64 n.toInt64

/-- The number of a double; there is none for NaN and the infinities. -/
def ofBinary64 (d : Binary64) : Json := if d.isFinite then .num (.double d) else .null

/-- The entry put where its key belongs in entries with increasing keys, in the
place of an entry with the same key. -/
def insertEntry (key : String) (value : Json) : List (String × Json) → List (String × Json)
  | [] => [(key, value)]
  | (k, v) :: rest =>
    if key < k then (key, value) :: (k, v) :: rest
    else if key = k then (key, value) :: rest
    else (k, v) :: insertEntry key value rest

/-- The object of the given entries, by increasing key. -/
def object (entries : List (String × Json)) : Json :=
  .obj (entries.foldl (fun acc e => insertEntry e.1 e.2 acc) [])

/-- The value under a key of an object. -/
def get? (key : String) : Json → Option Json
  | .obj entries => entries.lookup key
  | _ => none

end Json

end PushFeed
