import PushFeed.Log
import PushFeed.Schema.Codec
/-!
# The schema cache

A schema is loaded when it is first asked for and kept for good; a failure is not
kept, so the next request asks the loader again. The number of loads counts every
call of the loader.
-/

namespace PushFeed

/-- What answers a request for a schema; it is told how many calls came before. -/
abbrev SchemaLoader := Nat → String → String → Except FeedError MessageType

/-- The loader of the built-in types. -/
def SchemaLoader.builtin : SchemaLoader := fun _ => loadBuiltin

/-- The loader that fails at its first calls and then goes on as another one. -/
def SchemaLoader.failingFirst (count : Nat) (reason : String) (loader : SchemaLoader) :
    SchemaLoader := fun calls source typeName =>
  if calls < count then .error (.schemaLoad source typeName reason)
  else loader calls source typeName

/-- A schema that has been loaded. -/
structure LoadedSchema where
  /-- Which call of the loader made it; two schemas with one serial are the same. -/
  serial : Nat
  /-- The message type. -/
  messageType : MessageType
  deriving DecidableEq, Repr

/-- The schema as the log shows it. -/
def LoadedSchema.debug (s : LoadedSchema) : String :=
  "ProstSchema \x7b type_name: " ++ Text.quoted s.messageType.typeName ++ " \x7d"

/-- A schema and the source and name it was asked for with. -/
structure CacheEntry where
  /-- The source. -/
  source : String
  /-- The type's name. -/
  typeName : String
  /-- The schema. -/
  schema : LoadedSchema
  deriving DecidableEq, Repr

/-- Schemas by source and type name. -/
structure SchemaCache where
  /-- The schemas loaded so far. -/
  entries : List CacheEntry := []
  /-- How often the loader has been called. -/
  loads : Nat := 0
  deriving DecidableEq, Repr

namespace SchemaCache

/-- The schema kept for a source and a type name. -/
def find? (c : SchemaCache) (source typeName : String) : Option LoadedSchema :=
  (c.entries.find? fun e => e.source == source && e.typeName == typeName).map (·.schema)

/-- The schema for a source and a type name, loaded if need be; with the cache
afterwards and what it reports. -/
def resolve (loader : SchemaLoader) (c : SchemaCache) (source typeName : String) :
    Except FeedError LoadedSchema × SchemaCache × List LogLine :=
  match c.find? source typeName with
  | some schema => (.ok schema, c, [])
  | none =>
    match loader c.loads source typeName with
    | .error e => (.error e, { c with loads := c.loads + 1 }, [])
    | .ok t =>
      let schema : LoadedSchema := ⟨c.loads, t⟩
      (.ok schema, ⟨c.entries ++ [⟨source, typeName, schema⟩], c.loads + 1⟩,
        [⟨.debug, "[SchemaCache] Loaded " ++ typeName ++ " from " ++ source⟩])

/-- Does something with the schema for a source and a type name. -/
def withSchema {α : Type} (loader : SchemaLoader) (c : SchemaCache) (source typeName : String)
    (use : MessageType → Except FeedError α) : Except FeedError α × SchemaCache × List LogLine :=
  let (found, c, lines) := c.resolve loader source typeName
  (found.bind fun schema => use schema.messageType, c, lines)

/-- The structured value of a frame. -/
def decode (loader : SchemaLoader) (c : SchemaCache) (source typeName : String)
    (bytes : Wire.Bytes) : Except FeedError Json × SchemaCache × List LogLine :=
  c.withSchema loader source typeName (·.decode bytes)

/-- The value of a frame read as a type of the caller's. -/
def decodeAs {α : Type} (reader : Json → Except JsonFault α) (loader : SchemaLoader)
    (c : SchemaCache) (source typeName : String) (bytes : Wire.Bytes) :
    Except FeedError α × SchemaCache × List LogLine :=
  c.withSchema loader source typeName fun t =>
    (t.decode bytes).bind (typedValue typeName reader)

/-- The frame of a structured value. -/
def encode (loader : SchemaLoader) (c : SchemaCache) (source typeName : String) (value : Json) :
    Except FeedError Wire.Bytes × SchemaCache × List LogLine :=
  c.withSchema loader source typeName (·.encode value)

/-- How many schemas are kept. -/
def size (c : SchemaCache) : Nat := c.entries.length

/-- The cache as the log shows it. -/
def debug (c : SchemaCache) : String :=
  "SchemaCache \x7b entries: " ++ toString c.size ++ ", loads: " ++ toString c.loads ++ " \x7d"

end SchemaCache

end PushFeed
