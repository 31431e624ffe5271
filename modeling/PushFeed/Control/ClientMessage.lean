import PushFeed.Error
import PushFeed.Text.Blank
import PushFeed.Json.Printer
import PushFeed.Json.Reader
/-!
# Control messages to the server

A client asks for a channel or lets it go, with an id of its own choice if it
wants one. `ClientMessage.text?` refuses channel names the server could never
route; what it writes reads back as the same message.
-/

namespace PushFeed

/-- What a control message asks for. -/
inductive ControlAction where
  | subscribe
  | unsubscribe
  deriving DecidableEq, Repr

/-- The name of an action in JSON. -/
def ControlAction.name : ControlAction → String
  | .subscribe => "Subscribe"
  | .unsubscribe => "Unsubscribe"

/-- An action and its channel. -/
structure ControlRequest where
  /-- What is asked for. -/
  action : ControlAction
  /-- The channel it is about. -/
  channel : String
  deriving DecidableEq, Repr

/-- A control message. -/
structure ClientMessage where
  /-- An id of the client's choice. -/
  id : Option String
  /-- The request. -/
  request : ControlRequest
  deriving DecidableEq, Repr

namespace ControlAction

/-- The names of the actions. -/
def names : List String := ["Subscribe", "Unsubscribe"]

/-- The action of a name; a name that is none of them counts as the second. -/
def ofName (name : String) : ControlAction :=
  if name = "Subscribe" then .subscribe else .unsubscribe

end ControlAction

namespace ControlRequest

/-- The request in JSON. -/
def json (r : ControlRequest) : List Char :=
  Json.objectText [("type", Json.stringText r.action.name),
    ("data", Json.objectText [("channel", Json.stringText r.channel)])]

/-- What a message calls the data of an action. -/
def dataName (action : ControlAction) : String := "struct variant MessagePayload::" ++ action.name

/-- The data of an action, which must be an object. -/
def dataRecord (action : ControlAction) : Json.Record (Option String) String where
  name := dataName action
  fields := ["channel"]
  defaulted := []
  start := none
  has := fun _ s => s.isSome
  read := fun _ _ depth cs => do
    let (channel, rest) ← Json.readText depth cs
    .ok (some channel, rest)
  ofJson := fun _ _ v => (Json.textOf v).map some
  finish
    | some channel => .ok channel
    | none => .error (.missingField "channel")

/-- Reads the data of an action. -/
def readData (action : ControlAction) : Json.Reader String := fun depth cs =>
  match Json.skipBlanks cs with
  | [] => .error (.malformed .endInValue)
  | '[' :: rest =>
    if depth = 0 then .error (.malformed .tooDeep)
    else .error (Json.kindFault (dataName action) ('[' :: rest))
  | rest => (dataRecord action).reader depth rest

/-- The data of an action from a value. -/
def dataOf (action : ControlAction) : Json → Except JsonFault String
  | .obj entries => (dataRecord action).decode (.obj entries)
  | v => .error (.wrongType v.found (dataName action))

/-- What a message calls a request. -/
def requestName : String := "adjacently tagged enum MessagePayload"

/-- Reads the next entry whose key is `type` or `data`: its key, and the text after
the key. Other entries are passed over. -/
def nextEntry : Nat → Bool → List Char → Except JsonFault (Option String × List Char)
  | 0, _, _ => .error (.malformed .endInObject)
  | fuel + 1, first, cs => do
    match ← Json.token (Json.nextKey first cs) with
    | none => .ok (none, cs)
    | some start =>
      let (key, rest) ← Json.token (Json.readString start)
      if key = "type" ∨ key = "data" then .ok (some key, rest)
      else
        let rest ← Json.token (Json.readColon rest)
        let rest ← Json.token (Json.skipValue rest)
        nextEntry fuel false rest

/-- Reads an action after its key. -/
def readAction (depth : Nat) (cs : List Char) : Except JsonFault (ControlAction × List Char) := do
  let rest ← Json.token (Json.readColon cs)
  let (name, rest) ← Json.readName? ControlAction.names depth rest
  .ok (ControlAction.ofName name, rest)

/-- Reads to the end of an object that has both its entries; a second one of either
is a fault. -/
def readTail (cs : List Char) : Except JsonFault (List Char) := do
  match ← nextEntry (cs.length + 1) false cs with
  | (some key, _) => .error (.duplicateField key)
  | (none, rest) => .ok rest

/-- Reads the entries of a request, in either order. -/
def readEntries (depth : Nat) (cs : List Char) :
    Except JsonFault (ControlRequest × List Char) := do
  match ← nextEntry (cs.length + 1) true cs with
  | (none, _) => .error (.missingField "type")
  | (some "type", rest) =>
    let (action, rest) ← readAction depth rest
    match ← nextEntry (rest.length + 1) false rest with
    | (none, _) => .error (.missingField "data")
    | (some "type", _) => .error (.duplicateField "type")
    | (some _, rest) =>
      let rest ← Json.token (Json.readColon rest)
      let (channel, rest) ← readData action depth rest
      let rest ← readTail rest
      .ok (⟨action, channel⟩, rest)
  | (some _, rest) =>
    let rest ← Json.token (Json.readColon rest)
    let (data, rest) ← Json.readAny depth rest
    match ← nextEntry (rest.length + 1) false rest with
    | (none, _) => .error (.missingField "type")
    | (some "type", rest) =>
      let (action, rest) ← readAction depth rest
      let channel ← dataOf action data
      let rest ← readTail rest
      .ok (⟨action, channel⟩, rest)
    | (some _, _) => .error (.duplicateField "data")

/-- Reads the items of a request: its action, then its data. -/
def readItems (depth : Nat) (cs : List Char) :
    Except JsonFault (ControlRequest × List Char) := do
  match ← Json.token (Json.nextItem true cs) with
  | none => .error (.wrongLength 0 requestName)
  | some start =>
    let (name, rest) ← Json.readName? ControlAction.names depth start
    let action := ControlAction.ofName name
    match ← Json.token (Json.nextItem false rest) with
    | none => .error (.wrongLength 1 requestName)
    | some start =>
      let (channel, rest) ← readData action depth start
      .ok (⟨action, channel⟩, rest)

/-- Reads a request from JSON. -/
def reader : Json.Reader ControlRequest := fun depth cs =>
  match Json.skipBlanks cs with
  | [] => .error (.malformed .endInValue)
  | '\x7b' :: rest =>
    match depth with
    | 0 => .error (.malformed .tooDeep)
    | depth + 1 => do
      let (request, rest) ← readEntries depth rest
      let rest ← Json.token (Json.endObject rest)
      .ok (request, rest)
  | '[' :: rest =>
    match depth with
    | 0 => .error (.malformed .tooDeep)
    | depth + 1 => do
      let (request, rest) ← readItems depth rest
      let rest ← Json.token (Json.endList rest)
      .ok (request, rest)
  | rest => .error (Json.kindFault requestName rest)

/-- A request from its two values, the fault of the action first. -/
def ofPair (tag data : Json) : Except JsonFault ControlRequest := do
  let name ← Json.nameOf ControlAction.names tag
  let channel ← dataOf (ControlAction.ofName name) data
  .ok ⟨ControlAction.ofName name, channel⟩

/-- A request from a value. -/
def ofJson : Json → Except JsonFault ControlRequest
  | .obj entries =>
    match entries.lookup "type", entries.lookup "data" with
    | some tag, some data => ofPair tag data
    | none, _ => .error (.missingField "type")
    | some tag, none => do
      let _ ← Json.nameOf ControlAction.names tag
      .error (.missingField "data")
  | .arr [] => .error (.wrongLength 0 requestName)
  | .arr [tag] => do
    let _ ← Json.nameOf ControlAction.names tag
    .error (.wrongLength 1 requestName)
  | .arr (tag :: data :: more) => do
    let request ← ofPair tag data
    if more.isEmpty then .ok request
    else .error (.wrongLength (more.length + 2) "fewer elements in array")
  | v => .error (.wrongType v.found requestName)

end ControlRequest

namespace ClientMessage

/-- A message that asks for a channel. -/
def subscribe (channel : String) : ClientMessage := ⟨none, ⟨.subscribe, channel⟩⟩

/-- A message that lets a channel go. -/
def unsubscribe (channel : String) : ClientMessage := ⟨none, ⟨.unsubscribe, channel⟩⟩

/-- The message with an id. -/
def withId (m : ClientMessage) (id : String) : ClientMessage := { m with id := some id }

/-- The channel the message is about. -/
def channel (m : ClientMessage) : String := m.request.channel

/-- The message in JSON. -/
def json (m : ClientMessage) : List Char :=
  let request := ("payload", m.request.json)
  match m.id with
  | some id => Json.objectText [("id", Json.stringText id), request]
  | none => Json.objectText [request]

/-- Refuses a channel name that is empty or has a blank in it. -/
def validate (m : ClientMessage) : Except FeedError Unit :=
  if m.channel = "" then .error (.validation "channel name is empty")
  else if m.channel.toList.any Text.isBlank then
    .error (.validation ("channel name contains whitespace: " ++ Text.quoted m.channel))
  else .ok ()

/-- The text of a valid message. -/
def text? (m : ClientMessage) : Except FeedError String := do
  m.validate
  .ok (String.ofList m.json)

/-- The fields of a message read so far. -/
structure Fields where
  /-- The id, if its field has been read. -/
  id : Option (Option String) := none
  /-- The request. -/
  request : Option ControlRequest := none

/-- How a message is read. -/
def record : Json.Record Fields ClientMessage where
  name := "struct ClientMessage"
  fields := ["id", "payload"]
  defaulted := ["id"]
  start := {}
  has := fun key s => if key = "id" then s.id.isSome else s.request.isSome
  read := fun key s depth cs =>
    if key = "id" then do
      let (id, rest) ← Json.readOption Json.readText depth cs
      .ok ({ s with id := some id }, rest)
    else do
      let (request, rest) ← ControlRequest.reader depth cs
      .ok ({ s with request := some request }, rest)
  ofJson := fun key s v =>
    if key = "id" then (Json.optionOf Json.textOf v).map fun id => { s with id := some id }
    else (ControlRequest.ofJson v).map fun request => { s with request := some request }
  finish := fun s =>
    match s.request with
    | some request => .ok ⟨s.id.getD none, request⟩
    | none => .error (.missingField "payload")

/-- The message a text holds. -/
def parse (text : String) : Except JsonFault ClientMessage := Json.readWhole record.reader text

/-- The message as a value. -/
def toJson (m : ClientMessage) : Json :=
  let request := ("payload", Json.object [("type", .str m.request.action.name),
    ("data", Json.object [("channel", .str m.request.channel)])])
  match m.id with
  | some id => Json.object [("id", .str id), request]
  | none => Json.object [request]

end ClientMessage

end PushFeed
