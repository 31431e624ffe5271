import PushFeed.Json.Token
/-!
# Whole JSON values

Reading one value into a tree, with the entries of an object in the order of the
text, and passing over a value that nobody asked for. A value that is read may be
nested 127 deep; one that is passed over has no such limit, and its numbers and
surrogates are not checked.
-/

namespace PushFeed.Json

/-- The start of the next item of a list, or `none` at the closing bracket. -/
def nextItem (first : Bool) (cs : List Char) : Except Malformed (Option (List Char)) :=
  match skipBlanks cs with
  | [] => .error .endInList
  | ']' :: _ => .ok none
  | c :: rest =>
    if first then .ok (some (c :: rest))
    else if c = ',' then
      match skipBlanks rest with
      | [] => .error .endInValue
      | ']' :: _ => .error .trailingComma
      | item => .ok (some item)
    else .error .expectedListCommaOrEnd

/-- The closing bracket of a list whose items have been read. -/
def endList (cs : List Char) : Except Malformed (List Char) :=
  match skipBlanks cs with
  | [] => .error .endInList
  | ']' :: rest => .ok rest
  | ',' :: rest =>
    match skipBlanks rest with
    | ']' :: _ => .error .trailingComma
    | _ => .error .trailingCharacters
  | _ => .error .trailingCharacters

/-- The text after the quote that opens the next key of an object, or `none` at the
closing brace. -/
def nextKey (first : Bool) (cs : List Char) : Except Malformed (Option (List Char)) :=
  match skipBlanks cs with
  | [] => .error .endInObject
  | '\x7d' :: _ => .ok none
  | c :: rest =>
    if first then (if c = '"' then .ok (some rest) else .error .keyNotString)
    else if c = ',' then
      match skipBlanks rest with
      | [] => .error .endInValue
      | '"' :: key => .ok (some key)
      | '\x7d' :: _ => .error .trailingComma
      | _ => .error .keyNotString
    else .error .expectedObjectCommaOrEnd

/-- The closing brace of an object whose entries have been read. -/
def endObject (cs : List Char) : Except Malformed (List Char) :=
  match skipBlanks cs with
  | [] => .error .endInObject
  | '\x7d' :: rest => .ok rest
  | ',' :: _ => .error .trailingComma
  | _ => .error .trailingCharacters

/-- The text after the colon behind a key. -/
def readColon (cs : List Char) : Except Malformed (List Char) :=
  match skipBlanks cs with
  | [] => .error .endInObject
  | ':' :: rest => .ok rest
  | _ => .error .expectedColon

/-- The items of a list, up to its closing bracket, in at most so many steps. -/
def readItemsWithin (item : List Char → Except Malformed (Json × List Char)) :
    Nat → Bool → List Char → Except Malformed (List Json × List Char)
  | 0, _, _ => .error .endInList
  | fuel + 1, first, cs => do
    match ← nextItem first cs with
    | none => .ok ([], cs)
    | some start =>
      let (value, rest) ← item start
      let (more, rest) ← readItemsWithin item fuel false rest
      .ok (value :: more, rest)

/-- The entries of an object, up to its closing brace, in at most so many steps. -/
def readEntriesWithin (item : List Char → Except Malformed (Json × List Char)) :
    Nat → Bool → List Char → Except Malformed (List (String × Json) × List Char)
  | 0, _, _ => .error .endInObject
  | fuel + 1, first, cs => do
    match ← nextKey first cs with
    | none => .ok ([], cs)
    | some start =>
      let (key, rest) ← readString start
      let rest ← readColon rest
      let (value, rest) ← item rest
      let (more, rest) ← readEntriesWithin item fuel false rest
      .ok ((key, value) :: more, rest)

/-- How deep values may be nested. -/
def depthLimit : Nat := 127

/-- One value, in lists and objects nested at most so deep. -/
def readValueWithin : Nat → List Char → Except Malformed (Json × List Char)
  | depth, cs =>
    match skipBlanks cs with
    | [] => .error .endInValue
    | 'n' :: rest => do
      let rest ← readName ['u', 'l', 'l'] rest
      .ok (.null, rest)
    | 't' :: rest => do
      let rest ← readName ['r', 'u', 'e'] rest
      .ok (.bool true, rest)
    | 'f' :: rest => do
      let rest ← readName ['a', 'l', 's', 'e'] rest
      .ok (.bool false, rest)
    | '"' :: rest => do
      let (s, rest) ← readString rest
      .ok (.str s, rest)
    | '-' :: rest => do
      let (n, rest) ← readNumber true rest
      .ok (.num n, rest)
    | '[' :: rest =>
      match depth with
      | 0 => .error .tooDeep
      | depth + 1 => do
        let (items, rest) ← readItemsWithin (readValueWithin depth) (rest.length + 1) true rest
        let rest ← endList rest
        .ok (.arr items, rest)
    | '\x7b' :: rest =>
      match depth with
      | 0 => .error .tooDeep
      | depth + 1 => do
        let (entries, rest) ←
          readEntriesWithin (readValueWithin depth) (rest.length + 1) true rest
        let rest ← endObject rest
        .ok (.obj entries, rest)
    | c :: rest =>
      if (digitValue? c).isSome then do
        let (n, rest) ← readNumber false (c :: rest)
        .ok (.num n, rest)
      else .error .expectedValue

/-- What encloses a value that is passed over. -/
inductive Enclosing where
  | list
  | object
  deriving DecidableEq

/-- Where a pass over nested values stands. -/
inductive Passing where
  /-- Before a value. -/
  | atValue
  /-- Before the first item of what was just opened. -/
  | opened
  /-- After a value. -/
  | afterValue

/-- Passes over a key and its colon. -/
def skipKey (cs : List Char) : Except Malformed (List Char) :=
  match skipBlanks cs with
  | [] => .error .endInObject
  | '"' :: rest => do
    let rest ← skipString rest
    readColon rest
  | _ => .error .keyNotString

/-- Passes over values until nothing encloses them, in at most so many steps. -/
def skipWithin : Nat → Passing → List Enclosing → List Char → Except Malformed (List Char)
  | 0, _, _, _ => .error .endInValue
  | fuel + 1, .atValue, around, cs =>
    match skipBlanks cs with
    | [] => .error .endInValue
    | 'n' :: rest => do
      let rest ← readName ['u', 'l', 'l'] rest
      skipWithin fuel .afterValue around rest
    | 't' :: rest => do
      let rest ← readName ['r', 'u', 'e'] rest
      skipWithin fuel .afterValue around rest
    | 'f' :: rest => do
      let rest ← readName ['a', 'l', 's', 'e'] rest
      skipWithin fuel .afterValue around rest
    | '"' :: rest => do
      let rest ← skipString rest
      skipWithin fuel .afterValue around rest
    | '-' :: rest => do
      let rest ← skipNumber rest
      skipWithin fuel .afterValue around rest
    | '[' :: rest => skipWithin fuel .opened (.list :: around) rest
    | '\x7b' :: rest => skipWithin fuel .opened (.object :: around) rest
    | c :: rest =>
      if (digitValue? c).isSome then do
        let rest ← skipNumber (c :: rest)
        skipWithin fuel .afterValue around rest
      else .error .expectedValue
  | _ + 1, _, [], cs => .ok cs
  | fuel + 1, .opened, .list :: around, cs =>
    match skipBlanks cs with
    | [] => .error .endInList
    | ']' :: rest => skipWithin fuel .afterValue around rest
    | rest => skipWithin fuel .atValue (.list :: around) rest
  | fuel + 1, .opened, .object :: around, cs =>
    match skipBlanks cs with
    | [] => .error .endInObject
    | '\x7d' :: rest => skipWithin fuel .afterValue around rest
    | rest => do
      let rest ← skipKey rest
      skipWithin fuel .atValue (.object :: around) rest
  | fuel + 1, .afterValue, .list :: around, cs =>
    match skipBlanks cs with
    | [] => .error .endInList
    | ']' :: rest => skipWithin fuel .afterValue around rest
    | ',' :: rest => skipWithin fuel .atValue (.list :: around) rest
    | _ => .error .expectedListCommaOrEnd
  | fuel + 1, .afterValue, .object :: around, cs =>
    match skipBlanks cs with
    | [] => .error .endInObject
    | '\x7d' :: rest => skipWithin fuel .afterValue around rest
    | ',' :: rest => do
      let rest ← skipKey rest
      skipWithin fuel .atValue (.object :: around) rest
    | _ => .error .expectedObjectCommaOrEnd

/-- Passes over one value. Every two steps read a character. -/
def skipValue (cs : List Char) : Except Malformed (List Char) :=
  skipWithin (2 * cs.length + 2) .atValue [] cs

end PushFeed.Json
