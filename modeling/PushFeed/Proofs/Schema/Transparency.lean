import PushFeed.Proofs.Schema.Cache
import Mathlib.Data.List.Induction
/-!
# The cache cannot be seen

Codecs that share a cache in front of a loader that always answers alike give what a codec
gives that loads its schema anew each time (`CodecCall.perform_of_faithful`). So it does not
matter to a call what has been called before, in which order, and whether it succeeded
(`CodecCall.perform_after`). What tells the calls apart is the number of schemas kept, which
is also all that the log goes by, and the serial numbers of the schemas.
-/

namespace PushFeed

/-- A request reports a load if the cache has grown by it, and then what a new cache reports. -/
theorem SchemaCache.resolve_lines (load : String → String → Except FeedError MessageType)
    (c : SchemaCache) (source typeName : String) :
    (c.resolve (fun _ => load) source typeName).2.2 =
      if (c.resolve (fun _ => load) source typeName).2.1.size = c.size then []
      else (SchemaCache.resolve (fun _ => load) {} source typeName).2.2 := by
  have hempty : SchemaCache.find? {} source typeName = none := rfl
  cases hfind : c.find? source typeName with
  | some schema => simp [resolve, hfind]
  | none => cases hload : load source typeName <;> simp [resolve, hfind, hempty, hload, size]

/-- A call of a codec. -/
inductive CodecCall : Type 1 where
  /-- Asks for the schema. -/
  | resolve (source typeName : String)
  /-- Makes a frame of a structured value. -/
  | encode (source typeName : String) (value : Json)
  /-- Makes a structured value of a frame. -/
  | decode (source typeName : String) (bytes : Wire.Bytes)
  /-- Reads a frame as a type of the caller's. -/
  | decodeAs {α : Type} (reader : Json → Except JsonFault α) (source typeName : String)
    (bytes : Wire.Bytes)

namespace CodecCall

/-- What a call results in. Of a schema it is the type: which load made it is left out. -/
abbrev Result : CodecCall → Type
  | .resolve .. => MessageType
  | .encode .. => Wire.Bytes
  | .decode .. => Json
  | @decodeAs α .. => α

/-- The source a call names. -/
def source : CodecCall → String
  | .resolve source _ => source
  | .encode source _ _ => source
  | .decode source _ _ => source
  | .decodeAs _ source _ _ => source

/-- The type a call names. -/
def typeName : CodecCall → String
  | .resolve _ typeName => typeName
  | .encode _ typeName _ => typeName
  | .decode _ typeName _ => typeName
  | .decodeAs _ _ typeName _ => typeName

/-- A call on a cache: its result, the cache afterwards and what it reports. -/
def perform (loader : SchemaLoader) (c : SchemaCache) :
    (call : CodecCall) → Except FeedError call.Result × SchemaCache × List LogLine
  | .resolve source typeName =>
    let (found, c, lines) := c.resolve loader source typeName
    (found.map (·.messageType), c, lines)
  | .encode source typeName value => c.encode loader source typeName value
  | .decode source typeName bytes => c.decode loader source typeName bytes
  | .decodeAs reader source typeName bytes => c.decodeAs reader loader source typeName bytes

/-- A new cache after some calls. -/
def after (loader : SchemaLoader) (calls : List CodecCall) : SchemaCache :=
  calls.foldl (fun c call => (call.perform loader c).2.1) {}

/-- What a call does with its schema. -/
def use : (call : CodecCall) → MessageType → Except FeedError call.Result
  | .resolve _ _, t => .ok t
  | .encode _ _ value, t => t.encode value
  | .decode _ _ bytes, t => t.decode bytes
  | .decodeAs reader _ typeName bytes, t => (t.decode bytes).bind (typedValue typeName reader)

variable {load : String → String → Except FeedError MessageType} {c : SchemaCache}

/-- Every call asks the cache for its schema once. -/
theorem perform_eq (loader : SchemaLoader) (c : SchemaCache) (call : CodecCall) :
    call.perform loader c = c.withSchema loader call.source call.typeName call.use := by
  cases call with
  | resolve source typeName =>
    simp only [perform, SchemaCache.withSchema, CodecCall.source, CodecCall.typeName, use]
    cases (c.resolve loader source typeName).1 <;> rfl
  | encode | decode | decodeAs => rfl

/-- **A call on a faithful cache has the result of loading the schema and using it**, and
leaves the cache faithful. -/
theorem perform_of_faithful (hc : c.Faithful load) (call : CodecCall) :
    (call.perform (fun _ => load) c).1 = (load call.source call.typeName).bind call.use ∧
      (call.perform (fun _ => load) c).2.1.Faithful load := by
  rw [perform_eq]
  exact hc.withSchema call.source call.typeName call.use

theorem after_concat (loader : SchemaLoader) (calls : List CodecCall) (call : CodecCall) :
    after loader (calls ++ [call]) = (call.perform loader (after loader calls)).2.1 := by
  rw [after, List.foldl_append]
  rfl

/-- Calls leave a cache faithful. -/
theorem faithful_after (load : String → String → Except FeedError MessageType)
    (calls : List CodecCall) : (after (fun _ => load) calls).Faithful load := by
  induction calls using List.reverseRecOn with
  | nil => exact SchemaCache.faithful_empty
  | append_singleton calls call ih =>
    rw [after_concat]
    exact (perform_of_faithful ih call).2

/-- So does every call, for its one request. -/
theorem perform_lines (load : String → String → Except FeedError MessageType) (c : SchemaCache)
    (call : CodecCall) :
    (call.perform (fun _ => load) c).2.2 =
      if (call.perform (fun _ => load) c).2.1.size = c.size then []
      else (call.perform (fun _ => load) {}).2.2 := by
  rw [perform_eq, perform_eq]
  exact SchemaCache.resolve_lines load c call.source call.typeName

/-- **No call can see the cache.** In front of a loader whose answer depends on the source
and the name alone, a call after any others has the result it has on a new cache. Its log
lines are those of the new cache too, except that a schema that was kept is not reported
again: they say no more than the number of kept schemas does. -/
theorem perform_after (load : String → String → Except FeedError MessageType)
    (calls : List CodecCall) (call : CodecCall) :
    (call.perform (fun _ => load) (after (fun _ => load) calls)).1 =
        (call.perform (fun _ => load) {}).1 ∧
      (call.perform (fun _ => load) (after (fun _ => load) calls)).2.2 =
        if (after (fun _ => load) (calls ++ [call])).size = (after (fun _ => load) calls).size
        then [] else (call.perform (fun _ => load) {}).2.2 := by
  constructor
  · rw [(perform_of_faithful (faithful_after load calls) call).1,
      (perform_of_faithful SchemaCache.faithful_empty call).1]
  · rw [perform_lines, after_concat]

/-- The built-in types come from such a loader. -/
example (calls : List CodecCall) (call : CodecCall) :
    (call.perform .builtin (after .builtin calls)).1 = (call.perform .builtin {}).1 :=
  (perform_of_faithful (faithful_after loadBuiltin calls) call).1.trans
    (perform_of_faithful SchemaCache.faithful_empty call).1.symm

end CodecCall

end PushFeed
