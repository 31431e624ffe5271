import PushFeed.Number.Power
import PushFeed.Json.Document
/-!
# Reading typed values

A `Reader` reads a value of one type from the start of a JSON text, and stops at
the first fault in the order of the text. Records and enumerations are described
once (`Record`, the names of a variant) and read from text or from a value that
has been read before.
-/

namespace PushFeed.Json

/-- Reads a value at the start of a text, in containers nested at most so deep;
gives the value and the rest of the text. -/
abbrev Reader (α : Type) := Nat → List Char → Except JsonFault (α × List Char)

/-- A token's outcome as a reader's. -/
def token {α : Type} : Except Malformed α → Except JsonFault α
  | .ok a => .ok a
  | .error e => .error (.malformed e)

/-- The fault of a value of the wrong kind at the start of a text without leading
blanks: the value is read as far as its kind needs. -/
def kindFault (expected : String) : List Char → JsonFault
  | 'n' :: rest =>
    match readName ['u', 'l', 'l'] rest with
    | .ok _ => .wrongType .null expected
    | .error e => .malformed e
  | 't' :: rest =>
    match readName ['r', 'u', 'e'] rest with
    | .ok _ => .wrongType (.boolean true) expected
    | .error e => .malformed e
  | 'f' :: rest =>
    match readName ['a', 'l', 's', 'e'] rest with
    | .ok _ => .wrongType (.boolean false) expected
    | .error e => .malformed e
  | '-' :: rest =>
    match readNumber true rest with
    | .ok (n, _) => .wrongType n.found expected
    | .error e => .malformed e
  | '"' :: rest =>
    match readString rest with
    | .ok (s, _) => .wrongType (.text s) expected
    | .error e => .malformed e
  | '[' :: _ => .wrongType .sequence expected
  | '\x7b' :: _ => .wrongType .map expected
  | c :: rest =>
    if (digitValue? c).isSome then
      match readNumber false (c :: rest) with
      | .ok (n, _) => .wrongType n.found expected
      | .error e => .malformed e
    else .malformed .expectedValue
  | [] => .malformed .expectedValue

/-- Reads a text. -/
def readTextAs (expected : String) : Reader String := fun _ cs =>
  match skipBlanks cs with
  | [] => .error (.malformed .endInValue)
  | '"' :: rest => token (readString rest)
  | rest => .error (kindFault expected rest)

/-- Reads a text. -/
def readText : Reader String := readTextAs "a string"

/-- A text from a value. -/
def textOf : Json → Except JsonFault String
  | .str s => .ok s
  | v => .error (.wrongType v.found "a string")

/-- Reads nothing but `null`. -/
def readUnit : Reader Unit := fun _ cs =>
  match skipBlanks cs with
  | [] => .error (.malformed .endInValue)
  | 'n' :: rest => do
    let rest ← token (readName ['u', 'l', 'l'] rest)
    .ok ((), rest)
  | rest => .error (kindFault "unit" rest)

/-- Nothing, from `null`. -/
def unitOf : Json → Except JsonFault Unit
  | .null => .ok ()
  | v => .error (.wrongType v.found "unit")

/-- Reads `null` or a value. -/
def readOption {α : Type} (item : Reader α) : Reader (Option α) := fun depth cs =>
  match skipBlanks cs with
  | 'n' :: rest => do
    let rest ← token (readName ['u', 'l', 'l'] rest)
    .ok (none, rest)
  | rest => do
    let (a, rest) ← item depth rest
    .ok (some a, rest)

/-- A value, or none from `null`. -/
def optionOf {α : Type} (item : Json → Except JsonFault α) : Json → Except JsonFault (Option α)
  | .null => .ok none
  | v => (item v).map some

/-- A count of 32 bits from a number. -/
def uint32OfNumber : JsonNumber → Except JsonFault UInt32
  | .natural n =>
    if n.toNat < twoTo 32 then .ok (UInt32.ofNat n.toNat)
    else .error (.wrongValue (.natural n) "u32")
  | .integer n => .error (.wrongValue (.integer n) "u32")
  | .double d => .error (.wrongType (.double d) "u32")

/-- Reads a number. -/
def readNumberAs {α : Type} (expected : String) (item : JsonNumber → Except JsonFault α) :
    Reader α := fun _ cs =>
  match skipBlanks cs with
  | [] => .error (.malformed .endInValue)
  | '-' :: rest => do
    let (n, rest) ← token (readNumber true rest)
    let a ← item n
    .ok (a, rest)
  | c :: rest =>
    if (digitValue? c).isSome then do
      let (n, rest) ← token (readNumber false (c :: rest))
      let a ← item n
      .ok (a, rest)
    else .error (kindFault expected (c :: rest))

/-- Reads a count of 32 bits. -/
def readUInt32 : Reader UInt32 := readNumberAs "u32" uint32OfNumber

/-- A count of 32 bits from a value. -/
def uint32Of : Json → Except JsonFault UInt32
  | .num n => uint32OfNumber n
  | v => .error (.wrongType v.found "u32")

/-- Reads a value of any kind. -/
def readAny : Reader Json := fun depth cs => token (readValueWithin depth cs)

/-- The items of a list, up to its closing bracket, in at most so many steps. -/
def readItemsAs {α : Type} (item : Reader α) (depth : Nat) :
    Nat → Bool → List Char → Except JsonFault (List α × List Char)
  | 0, _, _ => .error (.malformed .endInList)
  | fuel + 1, first, cs => do
    match ← token (nextItem first cs) with
    | none => .ok ([], cs)
    | some start =>
      let (a, rest) ← item depth start
      let (more, rest) ← readItemsAs item depth fuel false rest
      .ok (a :: more, rest)

/-- Reads a list. -/
def readList {α : Type} (item : Reader α) : Reader (List α) := fun depth cs =>
  match skipBlanks cs with
  | [] => .error (.malformed .endInValue)
  | '[' :: rest =>
    match depth with
    | 0 => .error (.malformed .tooDeep)
    | depth + 1 => do
      let (items, rest) ← readItemsAs item depth (rest.length + 1) true rest
      let rest ← token (endList rest)
      .ok (items, rest)
  | rest => .error (kindFault "a sequence" rest)

/-! ## Enumerations -/

/-- A name among the known ones. -/
def knownVariant (known : List String) (name : String) : Except JsonFault String :=
  if known.contains name then .ok name else .error (.unknownVariant name known)

/-- Reads one of the named variants: a bare name, or an object of one entry whose
key is the name. -/
def readVariant {α : Type} (known : List String) (bare : String → Except JsonFault α)
    (body : String → Reader α) : Reader α := fun depth cs =>
  match skipBlanks cs with
  | [] => .error (.malformed .endInValue)
  | '"' :: rest => do
    let (name, rest) ← token (readString rest)
    let name ← knownVariant known name
    let a ← bare name
    .ok (a, rest)
  | '\x7b' :: rest =>
    match depth with
    | 0 => .error (.malformed .tooDeep)
    | depth + 1 => do
      let (name, rest) ← readTextAs "variant identifier" depth rest
      let name ← knownVariant known name
      let rest ← token (readColon rest)
      let (a, rest) ← body name depth rest
      match skipBlanks rest with
      | [] => .error (.malformed .endInObject)
      | '\x7d' :: rest => .ok (a, rest)
      | _ => .error (.malformed .expectedValue)
  | _ => .error (.malformed .expectedValue)

/-- One of the named variants, none of which carries a value. -/
def readName? (known : List String) : Reader String :=
  readVariant known .ok fun name depth cs => do
    let ((), rest) ← readUnit depth cs
    .ok (name, rest)

/-- One of the named variants, none of which carries a value, from a value. -/
def nameOf (known : List String) : Json → Except JsonFault String
  | .str s => knownVariant known s
  | .obj [(name, v)] => do
    let name ← knownVariant known name
    unitOf v
    .ok name
  | .obj _ => .error (.wrongValue .map "map with a single key")
  | v => .error (.wrongType v.found "string or map")

/-! ## Records -/

/-- How a record with named fields is read. `σ` holds the fields read so far. -/
structure Record (σ α : Type) where
  /-- What messages call the record, such as `struct Point`. -/
  name : String
  /-- The fields, in the order they have in a list. -/
  fields : List String
  /-- The fields that may be left out at the end of a list. -/
  defaulted : List String
  /-- No field read yet. -/
  start : σ
  /-- Whether a field has been read. -/
  has : String → σ → Bool
  /-- Reads a field. -/
  read : String → σ → Reader σ
  /-- A field from a value. -/
  ofJson : String → σ → Json → Except JsonFault σ
  /-- The record, once every required field is there. -/
  finish : σ → Except JsonFault α

namespace Record

variable {σ α : Type} (r : Record σ α)

/-- What a message says of a list that is too short. -/
def listName : String :=
  r.name ++ " with " ++ toString r.fields.length ++
    (if r.fields.length = 1 then " element" else " elements")

/-- Reads entries up to the closing brace, in at most so many steps. -/
def readEntries (depth : Nat) :
    Nat → Bool → σ → List Char → Except JsonFault (σ × List Char)
  | 0, _, _, _ => .error (.malformed .endInObject)
  | fuel + 1, first, s, cs => do
    match ← token (nextKey first cs) with
    | none => .ok (s, cs)
    | some start =>
      let (key, rest) ← token (readString start)
      if r.fields.contains key then
        if r.has key s then .error (.duplicateField key)
        else
          let rest ← token (readColon rest)
          let (s, rest) ← r.read key s depth rest
          readEntries depth fuel false s rest
      else
        let rest ← token (readColon rest)
        let rest ← token (skipValue rest)
        readEntries depth fuel false s rest

/-- Reads the fields from the items of a list, `index` of which have been read. -/
def readFields (depth : Nat) :
    List String → Nat → Bool → σ → List Char → Except JsonFault (σ × List Char)
  | [], _, _, s, cs => .ok (s, cs)
  | field :: more, index, first, s, cs => do
    match ← token (nextItem first cs) with
    | none =>
      if r.defaulted.contains field then readFields depth more (index + 1) first s cs
      else .error (.wrongLength index r.listName)
    | some start =>
      let (s, rest) ← r.read field s depth start
      readFields depth more (index + 1) false s rest

/-- Reads the record, from an object or a list of its fields. -/
def reader : Reader α := fun depth cs =>
  match skipBlanks cs with
  | [] => .error (.malformed .endInValue)
  | '\x7b' :: rest =>
    match depth with
    | 0 => .error (.malformed .tooDeep)
    | depth + 1 => do
      let (s, rest) ← r.readEntries depth (rest.length + 1) true r.start rest
      let a ← r.finish s
      let rest ← token (endObject rest)
      .ok (a, rest)
  | '[' :: rest =>
    match depth with
    | 0 => .error (.malformed .tooDeep)
    | depth + 1 => do
      let (s, rest) ← r.readFields depth r.fields 0 true r.start rest
      let a ← r.finish s
      let rest ← token (endList rest)
      .ok (a, rest)
  | rest => .error (kindFault r.name rest)

/-- The fields from the entries of an object. -/
def entriesOf : List (String × Json) → σ → Except JsonFault σ
  | [], s => .ok s
  | (key, v) :: more, s =>
    if r.fields.contains key then
      if r.has key s then .error (.duplicateField key)
      else do
        let s ← r.ofJson key s v
        entriesOf more s
    else entriesOf more s

/-- The fields from the items of a list, and the items left. -/
def itemsOf : List String → Nat → List Json → σ → Except JsonFault (σ × List Json)
  | [], _, items, s => .ok (s, items)
  | field :: more, index, [], s =>
    if r.defaulted.contains field then itemsOf more (index + 1) [] s
    else .error (.wrongLength index r.listName)
  | field :: more, index, v :: items, s => do
    let s ← r.ofJson field s v
    itemsOf more (index + 1) items s

/-- The record from a value. -/
def decode : Json → Except JsonFault α
  | .obj entries => do
    let s ← r.entriesOf entries r.start
    r.finish s
  | .arr items => do
    let (s, left) ← r.itemsOf r.fields 0 items r.start
    let a ← r.finish s
    if left.isEmpty then .ok a
    else .error (.wrongLength items.length "fewer elements in array")
  | v => .error (.wrongType v.found r.name)

end Record

/-- A value that a text consists of, blanks around it apart. -/
def readWhole {α : Type} (item : Reader α) (text : String) : Except JsonFault α := do
  let (a, rest) ← item depthLimit text.toList
  match skipBlanks rest with
  | [] => .ok a
  | _ => .error (.malformed .trailingCharacters)

end PushFeed.Json
