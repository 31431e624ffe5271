import PushFeed.Json.Printer
import PushFeed.Wire.Structured
import PushFeed.Number.Decimal.Reading
import PushFeed.Time.Rfc3339
import PushFeed.Market.Book
import PushFeed.Market.Price
/-!
# Market data in JSON

Decimals are written as texts and read from texts or numbers, times are texts, and
enumerations are their lower-case names. Every field of a level, a view or a price
point is required.
-/

namespace PushFeed

/-! ## Decimals and times -/

/-- What messages say was expected of a decimal. -/
def decimalName : String := "a Decimal type representing a fixed-point number"

/-- A decimal from a text. -/
def decimalOfText (s : String) : Except JsonFault Decimal :=
  match Decimal.parse? s with
  | some d => .ok d
  | none => .error (.wrongValue (.text s) decimalName)

/-- A decimal from a number: a whole number as it is, a double by its digits. -/
def decimalOfNumber : JsonNumber → Except JsonFault Decimal
  | .natural n => .ok (Decimal.ofInt n.toNat)
  | .integer n => .ok (Decimal.ofInt n.toInt)
  | .double d =>
    match Decimal.parse? d.text with
    | some x => .ok x
    | none => .error (.wrongValue (.double d) decimalName)

/-- Reads a decimal from JSON. -/
def readDecimal : Json.Reader Decimal := fun depth cs =>
  match Json.skipBlanks cs with
  | '"' :: rest => do
    let (s, rest) ← Json.token (Json.readString rest)
    let d ← decimalOfText s
    .ok (d, rest)
  | rest => Json.readNumberAs decimalName decimalOfNumber depth rest

/-- A decimal from a value. -/
def decimalOf : Json → Except JsonFault Decimal
  | .str s => decimalOfText s
  | .num n => decimalOfNumber n
  | v => .error (.wrongType v.found decimalName)

/-- A decimal in JSON. -/
def decimalJson (d : Decimal) : List Char := Json.stringText d.text

/-- What messages say was expected of a time. -/
def timeName : String := "an RFC 3339 formatted date and time string"

/-- A time from a text. -/
def timeOfText (s : String) : Except JsonFault Instant :=
  match Instant.parse s with
  | .ok t => .ok t
  | .error e => .error (.badTime e.message)

/-- Reads a time from JSON. -/
def readTime : Json.Reader Instant := fun depth cs => do
  let (s, rest) ← Json.readTextAs timeName depth cs
  let t ← timeOfText s
  .ok (t, rest)

/-- A time from a value. -/
def timeOf : Json → Except JsonFault Instant
  | .str s => timeOfText s
  | v => .error (.wrongType v.found timeName)

/-- A time in JSON. -/
def timeJson (t : Instant) : List Char := Json.stringText (String.ofList t.text)

/-! ## Outcomes and sides -/

/-- The name of an outcome. -/
def Outcome.tag : Outcome → String
  | .yes => "yes"
  | .no => "no"

/-- The names of the outcomes. -/
def Outcome.tags : List String := ["yes", "no"]

/-- The outcome of a name; a name that is none of them counts as the second. -/
def Outcome.ofTag (tag : String) : Outcome := if tag = "yes" then .yes else .no

/-- Reads an outcome from JSON. -/
def Outcome.reader : Json.Reader Outcome := fun depth cs => do
  let (tag, rest) ← Json.readName? Outcome.tags depth cs
  .ok (.ofTag tag, rest)

/-- The name of a side. -/
def BookSide.tag : BookSide → String
  | .buy => "buy"
  | .sell => "sell"

/-- The names of the sides. -/
def BookSide.tags : List String := ["buy", "sell"]

/-- The side of a name; a name that is none of them counts as the second. -/
def BookSide.ofTag (tag : String) : BookSide := if tag = "buy" then .buy else .sell

/-- Reads a side from JSON. -/
def BookSide.reader : Json.Reader BookSide := fun depth cs => do
  let (tag, rest) ← Json.readName? BookSide.tags depth cs
  .ok (.ofTag tag, rest)

/-- A side from a value. -/
def BookSide.ofJson (v : Json) : Except JsonFault BookSide :=
  (Json.nameOf BookSide.tags v).map BookSide.ofTag

/-! ## Records -/

/-- A field that has to be there. -/
def required {α : Type} (name : String) : Option α → Except JsonFault α
  | some a => .ok a
  | none => .error (.missingField name)

/-- What a reader read, put where it belongs. -/
def reading {α σ : Type} (item : Json.Reader α) (put : α → σ) : Json.Reader σ :=
  fun depth cs => do
    let (a, rest) ← item depth cs
    .ok (put a, rest)

namespace BookLevel

/-- The fields of a level read so far. -/
structure Fields where
  /-- The price. -/
  price : Option Decimal := none
  /-- The shares. -/
  shares : Option Decimal := none
  /-- The users. -/
  users : Option UInt32 := none
  /-- The side. -/
  side : Option BookSide := none

/-- How a level is read. -/
def record : Json.Record Fields BookLevel where
  name := "struct OrderBookLevel"
  fields := ["price", "shares", "users", "side"]
  defaulted := []
  start := {}
  has := fun key s =>
    if key = "price" then s.price.isSome
    else if key = "shares" then s.shares.isSome
    else if key = "users" then s.users.isSome
    else s.side.isSome
  read := fun key s =>
    if key = "price" then reading readDecimal fun d => { s with price := some d }
    else if key = "shares" then reading readDecimal fun d => { s with shares := some d }
    else if key = "users" then reading Json.readUInt32 fun n => { s with users := some n }
    else reading BookSide.reader fun side => { s with side := some side }
  ofJson := fun key s v =>
    if key = "price" then (decimalOf v).map fun d => { s with price := some d }
    else if key = "shares" then (decimalOf v).map fun d => { s with shares := some d }
    else if key = "users" then (Json.uint32Of v).map fun n => { s with users := some n }
    else (BookSide.ofJson v).map fun side => { s with side := some side }
  finish := fun s => do
    let price ← required "price" s.price
    let shares ← required "shares" s.shares
    let users ← required "users" s.users
    let side ← required "side" s.side
    .ok ⟨price, shares, users, side⟩

/-- The level in JSON. -/
def json (l : BookLevel) : List Char :=
  Json.objectText [("price", decimalJson l.price), ("shares", decimalJson l.shares),
    ("users", Nat.toDigits 10 l.users.toNat), ("side", Json.stringText l.side.tag)]

/-- The level as a value. -/
def toJson (l : BookLevel) : Json :=
  Json.object [("price", .str l.price.text), ("shares", .str l.shares.text),
    ("users", .ofUInt32 l.users), ("side", .str l.side.tag)]

end BookLevel

namespace BookView

/-- The fields of a view read so far. -/
structure Fields where
  /-- The market's id. -/
  marketId : Option String := none
  /-- When the view was built. -/
  timestamp : Option Instant := none
  /-- Buyers of yes. -/
  yesBids : Option (List BookLevel) := none
  /-- Sellers of yes. -/
  yesAsks : Option (List BookLevel) := none
  /-- Buyers of no. -/
  noBids : Option (List BookLevel) := none
  /-- Sellers of no. -/
  noAsks : Option (List BookLevel) := none

/-- Reads the levels of a side. -/
def readLevels : Json.Reader (List BookLevel) := Json.readList BookLevel.record.reader

/-- The levels of a side from a value. -/
def levelsOf (v : Json) : Except JsonFault (List BookLevel) :=
  Wire.listOf BookLevel.record.decode v

/-- How a view is read. -/
def record : Json.Record Fields BookView where
  name := "struct OrderBookView"
  fields := ["market_id", "timestamp", "yes_bids", "yes_asks", "no_bids", "no_asks"]
  defaulted := []
  start := {}
  has := fun key s =>
    if key = "market_id" then s.marketId.isSome
    else if key = "timestamp" then s.timestamp.isSome
    else if key = "yes_bids" then s.yesBids.isSome
    else if key = "yes_asks" then s.yesAsks.isSome
    else if key = "no_bids" then s.noBids.isSome
    else s.noAsks.isSome
  read := fun key s =>
    if key = "market_id" then reading Json.readText fun id => { s with marketId := some id }
    else if key = "timestamp" then reading readTime fun t => { s with timestamp := some t }
    else if key = "yes_bids" then reading readLevels fun ls => { s with yesBids := some ls }
    else if key = "yes_asks" then reading readLevels fun ls => { s with yesAsks := some ls }
    else if key = "no_bids" then reading readLevels fun ls => { s with noBids := some ls }
    else reading readLevels fun ls => { s with noAsks := some ls }
  ofJson := fun key s v =>
    if key = "market_id" then (Json.textOf v).map fun id => { s with marketId := some id }
    else if key = "timestamp" then (timeOf v).map fun t => { s with timestamp := some t }
    else if key = "yes_bids" then (levelsOf v).map fun ls => { s with yesBids := some ls }
    else if key = "yes_asks" then (levelsOf v).map fun ls => { s with yesAsks := some ls }
    else if key = "no_bids" then (levelsOf v).map fun ls => { s with noBids := some ls }
    else (levelsOf v).map fun ls => { s with noAsks := some ls }
  finish := fun s => do
    let marketId ← required "market_id" s.marketId
    let timestamp ← required "timestamp" s.timestamp
    let yesBids ← required "yes_bids" s.yesBids
    let yesAsks ← required "yes_asks" s.yesAsks
    let noBids ← required "no_bids" s.noBids
    let noAsks ← required "no_asks" s.noAsks
    .ok ⟨marketId, timestamp, yesBids, yesAsks, noBids, noAsks⟩

/-- Levels in JSON. -/
def levelsJson (levels : List BookLevel) : List Char :=
  Json.listText (levels.map BookLevel.json)

/-- The view in JSON. -/
def json (v : BookView) : List Char :=
  Json.objectText [("market_id", Json.stringText v.marketId), ("timestamp", timeJson v.timestamp),
    ("yes_bids", levelsJson v.yesBids), ("yes_asks", levelsJson v.yesAsks),
    ("no_bids", levelsJson v.noBids), ("no_asks", levelsJson v.noAsks)]

end BookView

namespace PricePoint

/-- The fields of a point read so far. -/
structure Fields where
  /-- The price of yes. -/
  yes : Option Decimal := none
  /-- The price of no. -/
  no : Option Decimal := none
  /-- When the prices were posted. -/
  time : Option Instant := none

/-- How a point is read. -/
def record : Json.Record Fields PricePoint where
  name := "struct PricePoint"
  fields := ["yes", "no", "time"]
  defaulted := []
  start := {}
  has := fun key s =>
    if key = "yes" then s.yes.isSome
    else if key = "no" then s.no.isSome
    else s.time.isSome
  read := fun key s =>
    if key = "yes" then reading readDecimal fun d => { s with yes := some d }
    else if key = "no" then reading readDecimal fun d => { s with no := some d }
    else reading readTime fun t => { s with time := some t }
  ofJson := fun key s v =>
    if key = "yes" then (decimalOf v).map fun d => { s with yes := some d }
    else if key = "no" then (decimalOf v).map fun d => { s with no := some d }
    else (timeOf v).map fun t => { s with time := some t }
  finish := fun s => do
    let yes ← required "yes" s.yes
    let no ← required "no" s.no
    let time ← required "time" s.time
    .ok ⟨yes, no, time⟩

/-- The point in JSON. -/
def json (p : PricePoint) : List Char :=
  Json.objectText [("yes", decimalJson p.yes), ("no", decimalJson p.no), ("time", timeJson p.time)]

end PricePoint

end PushFeed
