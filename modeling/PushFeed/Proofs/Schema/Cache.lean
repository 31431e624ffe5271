import PushFeed.Feed
/-!
# What a cache answers

A cache in front of a loader that always answers alike answers as the loader does: a
schema it keeps is the one that was loaded (`SchemaCache.Faithful`), and a failure it
does not keep.
-/

namespace PushFeed

variable {load : String → String → Except FeedError MessageType} {source typeName : String}

namespace SchemaCache

variable {c : SchemaCache}

/-- Every schema in the cache is the one that is loaded for its source and name. -/
def Faithful (load : String → String → Except FeedError MessageType) (c : SchemaCache) : Prop :=
  ∀ e ∈ c.entries, load e.source e.typeName = .ok e.schema.messageType

theorem faithful_empty : Faithful load {} := by
  intro e he
  cases he

theorem Faithful.find? (hc : c.Faithful load) {schema : LoadedSchema}
    (h : c.find? source typeName = some schema) : load source typeName = .ok schema.messageType := by
  rw [SchemaCache.find?, Option.map_eq_some_iff] at h
  obtain ⟨e, he, rfl⟩ := h
  have hkey := List.find?_some he
  simp only [Bool.and_eq_true, beq_iff_eq] at hkey
  obtain ⟨rfl, rfl⟩ := hkey
  exact hc e (List.mem_of_find?_eq_some he)

/-- **A faithful cache answers as its loader**, and stays faithful. -/
theorem Faithful.resolve (hc : c.Faithful load) (source typeName : String) :
    (c.resolve (fun _ => load) source typeName).1.map (·.messageType) = load source typeName ∧
      (c.resolve (fun _ => load) source typeName).2.1.Faithful load := by
  cases hfind : c.find? source typeName with
  | some schema =>
    simp only [SchemaCache.resolve, hfind]
    exact ⟨(hc.find? hfind).symm, hc⟩
  | none =>
    cases hload : load source typeName with
    -- a failure is answered but not kept
    | error e =>
      simp only [SchemaCache.resolve, hfind, hload]
      exact ⟨rfl, hc⟩
    | ok t =>
      simp only [SchemaCache.resolve, hfind, hload]
      refine ⟨rfl, fun e he => ?_⟩
      rcases List.mem_append.1 he with he | he
      · exact hc e he
      · rw [List.mem_singleton.1 he]
        exact hload

theorem Faithful.withSchema {α : Type} (hc : c.Faithful load) (source typeName : String)
    (use : MessageType → Except FeedError α) :
    (c.withSchema (fun _ => load) source typeName use).1 = (load source typeName).bind use ∧
      (c.withSchema (fun _ => load) source typeName use).2.1.Faithful load := by
  obtain ⟨hanswer, hafter⟩ := hc.resolve source typeName
  refine ⟨?_, hafter⟩
  rw [← hanswer]
  simp only [SchemaCache.withSchema]
  cases (c.resolve (fun _ => load) source typeName).1 <;> rfl

end SchemaCache

namespace Feed

variable {f : Feed}

/-- Whether a feed takes its schemas from the built-in types. -/
structure Faithful (f : Feed) : Prop where
  loader_eq : f.loader = .builtin
  cache : f.cache.Faithful loadBuiltin

/-- **A frame is decoded by the built-in type of its name**, whatever has been decoded
before. -/
theorem Faithful.decodeAs {α : Type} (hf : f.Faithful) (reader : Json → Except JsonFault α)
    (source typeName : String) (frame : Wire.Bytes) :
    (f.decodeAs reader source typeName frame).1 =
        ((loadBuiltin source typeName).bind fun t =>
          (t.decode frame).bind (typedValue typeName reader)) ∧
      (f.decodeAs reader source typeName frame).2.Faithful := by
  obtain ⟨hloader, hcache⟩ := hf
  obtain ⟨hanswer, hafter⟩ := hcache.withSchema source typeName fun t =>
    (t.decode frame).bind (typedValue typeName reader)
  unfold Feed.decodeAs SchemaCache.decodeAs
  rw [hloader]
  exact ⟨hanswer, ⟨rfl, hafter⟩⟩

end Feed

end PushFeed
