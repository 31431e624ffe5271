import PushFeed.Schema.Cache
import Mathlib.Data.Finset.Card
import Mathlib.Data.Finset.Dedup
/-!
# What a cache does over many requests

A cache is asked for one schema after another, in front of a loader that may answer
differently every time. Each request is written down with what the loader said to it, if it
was called at all (`SchemaCache.lookup`), and of the requests so far the cache and its
counter are a summary (`History.Memoizes`): the loader is called for a key until it has
succeeded once, and from then on every request for the key has the same schema
(`SchemaCache.history_memoizes`).
-/

namespace PushFeed

/-- What a schema is asked for with. -/
structure SchemaKey where
  /-- The source. -/
  source : String
  /-- The type's name. -/
  typeName : String
  deriving DecidableEq, Repr

/-- The key of a kept schema. -/
def CacheEntry.key (e : CacheEntry) : SchemaKey := ⟨e.source, e.typeName⟩

/-- A request for a schema. -/
structure Lookup where
  /-- What was asked for. -/
  key : SchemaKey
  /-- What the loader answered, if it was called. -/
  loaded? : Option (Except FeedError MessageType)
  /-- What the cache answered. -/
  answer : Except FeedError LoadedSchema
  deriving DecidableEq

namespace Lookup

/-- Whether the request got a schema for a key. -/
def resolves (key : SchemaKey) (l : Lookup) : Bool := l.key == key && l.answer.isOk

/-- The call of the loader. -/
def call? (l : Lookup) : Option (SchemaKey × Except FeedError MessageType) :=
  l.loaded?.map (l.key, ·)

end Lookup

namespace SchemaCache

variable {loader : SchemaLoader} {c : SchemaCache} {key : SchemaKey}

/-- The schema for a key, loaded if need be; with what the loader answered. -/
def lookup (loader : SchemaLoader) (c : SchemaCache) (key : SchemaKey) : Lookup × SchemaCache :=
  match c.find? key.source key.typeName with
  | some schema => (⟨key, none, .ok schema⟩, c)
  | none =>
    match loader c.loads key.source key.typeName with
    | .error e => (⟨key, some (.error e), .error e⟩, { c with loads := c.loads + 1 })
    | .ok t =>
      (⟨key, some (.ok t), .ok ⟨c.loads, t⟩⟩,
        ⟨c.entries ++ [⟨key.source, key.typeName, ⟨c.loads, t⟩⟩], c.loads + 1⟩)

/-- The requests so far and the cache after them. -/
structure History where
  /-- The requests, in order. -/
  log : List Lookup := []
  /-- The cache. -/
  cache : SchemaCache := {}

/-- A further request. -/
def History.ask (loader : SchemaLoader) (h : History) (key : SchemaKey) : History :=
  ⟨h.log ++ [(h.cache.lookup loader key).1], (h.cache.lookup loader key).2⟩

/-- The requests for the given keys, of a new cache. -/
def history (loader : SchemaLoader) (keys : List SchemaKey) : History :=
  keys.foldl (History.ask loader) {}

/-- A new cache after it has been asked for the given keys. -/
def after (loader : SchemaLoader) (keys : List SchemaKey) : SchemaCache :=
  keys.foldl (fun c key => (c.resolve loader key.source key.typeName).2.1) {}

/-! ## One request -/

/-- A request is answered as the cache does, and leaves what it leaves. -/
theorem lookup_eq (loader : SchemaLoader) (c : SchemaCache) (key : SchemaKey) :
    (c.lookup loader key).1.answer = (c.resolve loader key.source key.typeName).1 ∧
      (c.lookup loader key).2 = (c.resolve loader key.source key.typeName).2.1 := by
  unfold lookup resolve
  cases c.find? key.source key.typeName with
  | some schema => exact ⟨rfl, rfl⟩
  | none => cases loader c.loads key.source key.typeName <;> exact ⟨rfl, rfl⟩

theorem find?_eq (c : SchemaCache) (key : SchemaKey) :
    c.find? key.source key.typeName =
      (c.entries.find? fun e => decide (e.key = key)).map (·.schema) := by
  obtain ⟨source, typeName⟩ := key
  simp [find?, CacheEntry.key, Bool.decide_and, beq_eq_decide]

/-- A new schema is found under its own key and under no other. -/
theorem find?_add (c : SchemaCache) (new : CacheEntry) (loads : Nat) (key : SchemaKey) :
    (SchemaCache.mk (c.entries ++ [new]) loads).find? key.source key.typeName =
      (c.find? key.source key.typeName).or (if new.key = key then some new.schema else none) := by
  rw [find?_eq, find?_eq, List.find?_append, Option.map_or]
  by_cases h : new.key = key <;> simp [h]

/-- What a request can come to: the schema is kept already, the loader fails, or it loads the
schema, which is kept from then on. -/
inductive Asked (loader : SchemaLoader) (c : SchemaCache) (key : SchemaKey) :
    Lookup → SchemaCache → Prop where
  /-- The schema is kept. -/
  | kept {schema : LoadedSchema} (h : c.find? key.source key.typeName = some schema) :
      Asked loader c key ⟨key, none, .ok schema⟩ c
  /-- The loader fails. -/
  | failed {e : FeedError} (hnew : c.find? key.source key.typeName = none)
      (h : loader c.loads key.source key.typeName = .error e) :
      Asked loader c key ⟨key, some (.error e), .error e⟩ { c with loads := c.loads + 1 }
  /-- The loader answers. -/
  | loaded {t : MessageType} (hnew : c.find? key.source key.typeName = none)
      (h : loader c.loads key.source key.typeName = .ok t) :
      Asked loader c key ⟨key, some (.ok t), .ok ⟨c.loads, t⟩⟩
        ⟨c.entries ++ [⟨key.source, key.typeName, ⟨c.loads, t⟩⟩], c.loads + 1⟩

theorem asked_lookup (loader : SchemaLoader) (c : SchemaCache) (key : SchemaKey) :
    Asked loader c key (c.lookup loader key).1 (c.lookup loader key).2 := by
  unfold lookup
  cases hfind : c.find? key.source key.typeName with
  | some schema => exact .kept hfind
  | none =>
    cases hload : loader c.loads key.source key.typeName with
    | error e => exact .failed hfind hload
    | ok t => exact .loaded hfind hload

/-- A schema that is kept is answered without the loader: with any loader it is the same. -/
theorem resolve_of_find? {schema : LoadedSchema}
    (h : c.find? key.source key.typeName = some schema) (loader : SchemaLoader) :
    c.resolve loader key.source key.typeName = (.ok schema, c, []) := by
  simp only [resolve, h]

namespace Asked

variable {l : Lookup} {c' : SchemaCache}

theorem key_eq (h : Asked loader c key l c') : l.key = key := by
  cases h <;> rfl

/-- **A failure is the loader's**, and nothing is kept of it. -/
theorem eq_of_error (h : Asked loader c key l c') {e : FeedError} (hanswer : l.answer = .error e) :
    loader c.loads key.source key.typeName = .error e ∧ c' = { c with loads := c.loads + 1 } := by
  cases h with
  | kept | loaded => cases hanswer
  | failed _ h =>
    cases hanswer
    exact ⟨h, rfl⟩

/-- The loader is called if nothing is kept for the key. -/
theorem isSome_loaded?_iff (h : Asked loader c key l c') :
    l.loaded?.isSome = true ↔ c.find? key.source key.typeName = none := by
  cases h with
  | kept h => simp [h]
  | failed hnew => simp [hnew]
  | loaded hnew => simp [hnew]

/-- The loader is asked for the key, and for nothing else. -/
theorem call?_eq_some (h : Asked loader c key l c') {k : SchemaKey}
    {r : Except FeedError MessageType} (hcall : l.call? = some (k, r)) :
    r = loader c.loads k.source k.typeName := by
  cases h with
  | kept => cases hcall
  | failed _ h =>
    cases hcall
    exact h.symm
  | loaded _ h =>
    cases hcall
    exact h.symm

/-- After a request the schema it got is kept, and for the other keys all is as before. -/
theorem find?_eq_some_iff (h : Asked loader c key l c') {k : SchemaKey} {schema : LoadedSchema} :
    c'.find? k.source k.typeName = some schema ↔
      c.find? k.source k.typeName = some schema ∨ key = k ∧ l.answer = .ok schema := by
  cases h with
  | kept h =>
    constructor
    · exact .inl
    · rintro (hk | ⟨rfl, heq⟩)
      · exact hk
      · rw [h, Except.ok.inj heq]
  | failed =>
    show c.find? k.source k.typeName = some schema ↔ _
    simp
  | loaded hnew h =>
    rw [find?_add]
    show (c.find? k.source k.typeName).or (if key = k then _ else none) = _ ↔ _
    by_cases hk : key = k
    · subst hk
      simp [hnew]
    · simp [hk]

theorem nodup_keys (h : Asked loader c key l c') (hc : (c.entries.map (·.key)).Nodup) :
    (c'.entries.map (·.key)).Nodup := by
  cases h with
  | kept | failed => exact hc
  | loaded hnew =>
    -- nothing was kept for the key, so no entry has it
    rw [find?_eq, Option.map_eq_none_iff, List.find?_eq_none] at hnew
    rw [List.map_append, List.map_singleton, List.nodup_append]
    refine ⟨hc, List.nodup_singleton _, ?_⟩
    rintro a ha b hb rfl
    obtain ⟨e, he, rfl⟩ := List.mem_map.1 ha
    exact hnew e he (decide_eq_true (List.mem_singleton.1 hb))

end Asked

@[simp] theorem key_lookup (loader : SchemaLoader) (c : SchemaCache) (key : SchemaKey) :
    (c.lookup loader key).1.key = key :=
  (asked_lookup loader c key).key_eq

theorem resolve_eq_error {source typeName : String} {e : FeedError}
    (h : (c.resolve loader source typeName).1 = .error e) :
    loader c.loads source typeName = .error e ∧
      (c.resolve loader source typeName).2.1 = { c with loads := c.loads + 1 } := by
  obtain ⟨hanswer, hafter⟩ := lookup_eq loader c ⟨source, typeName⟩
  rw [← hafter]
  exact (asked_lookup loader c ⟨source, typeName⟩).eq_of_error (hanswer.trans h)

/-! ## Many requests -/

/-- The calls of the loader, in order. -/
def History.calls (h : History) : List (SchemaKey × Except FeedError MessageType) :=
  h.log.filterMap Lookup.call?

/-- What every request keeps true of the requests so far and the cache. -/
structure History.Sound (loader : SchemaLoader) (h : History) : Prop where
  /-- What the cache keeps is what requests have got. -/
  find?_iff : ∀ key schema, h.cache.find? key.source key.typeName = some schema ↔
    ∃ l ∈ h.log, l.key = key ∧ l.answer = .ok schema
  /-- A key has one entry. -/
  nodup_keys : (h.cache.entries.map (·.key)).Nodup
  /-- The counter counts the calls. -/
  loads_eq : h.cache.loads = h.calls.length
  /-- The calls are answered by the loader, in their order. -/
  call_eq : ∀ n key r, h.calls[n]? = some (key, r) → r = loader n key.source key.typeName
  /-- The loader is called as long as the key has not been resolved. -/
  called_iff : ∀ i l, h.log[i]? = some l →
    (l.loaded?.isSome = true ↔ (h.log.take i).any (·.resolves l.key) = false)
  /-- A key that has been resolved stays so, with the same schema and no further call. -/
  stays : h.log.Pairwise fun l l' => ∀ schema, l.answer = .ok schema → l'.key = l.key →
    l'.loaded? = none ∧ l'.answer = .ok schema
  /-- What is loaded is the answer. -/
  loaded : ∀ l ∈ h.log, ∀ t, l.loaded? = some (.ok t) → ∃ serial, l.answer = .ok ⟨serial, t⟩
  /-- An error is the loader's. -/
  error_iff : ∀ l ∈ h.log, ∀ e, l.answer = .error e ↔ l.loaded? = some (.error e)
  /-- A schema comes from the call that is its serial number. -/
  made : ∀ l ∈ h.log, ∀ schema, l.answer = .ok schema →
    h.calls[schema.serial]? = some (l.key, .ok schema.messageType)

variable {h : History} {l : Lookup} {c' : SchemaCache}

theorem isOk_iff {α : Type} {x : Except FeedError α} : x.isOk = true ↔ ∃ a, x = .ok a := by
  cases x <;> simp [Except.isOk, Except.toBool]

/-- A request of a log with one more is the new one or was there before. -/
theorem getElem?_add_iff {α : Type} {xs : List α} {x y : α} {i : Nat} :
    (xs ++ [x])[i]? = some y ↔ xs[i]? = some y ∨ i = xs.length ∧ x = y := by
  rw [List.getElem?_append]
  split
  · simp; omega
  · rename_i hi
    rw [List.getElem?_eq_none (Nat.le_of_not_lt hi), List.getElem?_singleton]
    split <;> simp <;> omega

theorem resolves_iff : l.resolves key = true ↔ l.key = key ∧ ∃ schema, l.answer = .ok schema := by
  rw [Lookup.resolves, Bool.and_eq_true, beq_iff_eq, isOk_iff]

/-- Whether a key has been resolved is whether its schema is kept. -/
theorem History.Sound.any_resolves_eq_false_iff (hs : h.Sound loader) :
    h.log.any (·.resolves key) = false ↔ h.cache.find? key.source key.typeName = none := by
  rw [Option.eq_none_iff_forall_ne_some, List.any_eq_false]
  simp only [ne_eq, hs.find?_iff, resolves_iff]
  exact ⟨fun h schema ⟨l, hl, hkey, hanswer⟩ => h l hl ⟨hkey, schema, hanswer⟩,
    fun h l hl ⟨hkey, schema, hanswer⟩ => h schema ⟨l, hl, hkey, hanswer⟩⟩

theorem History.calls_add (h : History) (l : Lookup) (c' : SchemaCache) :
    (History.mk (h.log ++ [l]) c').calls = h.calls ++ l.call?.toList := by
  rw [History.calls, List.filterMap_append]
  cases hcall : l.call? <;> simp [History.calls, hcall]

/-- **One more request** keeps what the requests have come to. -/
theorem History.Sound.add (hs : h.Sound loader) (hl : Asked loader h.cache key l c') :
    (History.mk (h.log ++ [l]) c').Sound loader where
  find?_iff k schema := by
    rw [hl.find?_eq_some_iff, hs.find?_iff]
    simp [or_and_right, exists_or, hl.key_eq]
  nodup_keys := hl.nodup_keys hs.nodup_keys
  loads_eq := by
    rw [calls_add, List.length_append, ← hs.loads_eq]
    cases hl <;> rfl
  call_eq n k r hn := by
    rw [calls_add] at hn
    cases hcall : l.call? with
    | none =>
      rw [hcall, Option.toList_none, List.append_nil] at hn
      exact hs.call_eq n k r hn
    | some call =>
      rw [hcall, Option.toList_some, getElem?_add_iff] at hn
      rcases hn with hold | ⟨rfl, rfl⟩
      · exact hs.call_eq n k r hold
      · rw [← hs.loads_eq]
        exact hl.call?_eq_some hcall
  called_iff i l' hi := by
    rcases getElem?_add_iff.1 hi with hold | ⟨rfl, rfl⟩
    · have hlt := (List.getElem?_eq_some_iff.1 hold).1
      rw [List.take_append_of_le_length (Nat.le_of_lt hlt)]
      exact hs.called_iff i l' hold
    · rw [List.take_left, hl.isSome_loaded?_iff, hl.key_eq, hs.any_resolves_eq_false_iff]
  stays := by
    refine List.pairwise_append.2 ⟨hs.stays, List.pairwise_singleton _ _, ?_⟩
    rintro l₀ hl₀ l' hl' schema hanswer hkey
    obtain rfl := List.mem_singleton.1 hl'
    -- the schema it had got is kept, so the request finds it
    have hfind := (hs.find?_iff l₀.key schema).2 ⟨l₀, hl₀, rfl, hanswer⟩
    rw [← hkey, hl.key_eq] at hfind
    cases hl with
    | kept h =>
      rw [h] at hfind
      cases hfind
      exact ⟨rfl, rfl⟩
    | failed hnew | loaded hnew =>
      rw [hnew] at hfind
      cases hfind
  loaded := by
    refine List.forall_mem_append.2 ⟨hs.loaded, List.forall_mem_singleton.2 ?_⟩
    cases hl <;> simp
  error_iff := by
    refine List.forall_mem_append.2 ⟨hs.error_iff, List.forall_mem_singleton.2 ?_⟩
    cases hl <;> simp
  made := by
    have hold : ∀ l₀ ∈ h.log, ∀ schema, l₀.answer = .ok schema →
        (h.calls ++ l.call?.toList)[schema.serial]? = some (l₀.key, .ok schema.messageType) := by
      intro l₀ hl₀ schema hanswer
      have hcall := hs.made l₀ hl₀ schema hanswer
      rwa [List.getElem?_append_left (List.getElem?_eq_some_iff.1 hcall).1]
    rw [calls_add]
    refine List.forall_mem_append.2 ⟨hold, List.forall_mem_singleton.2 fun schema hanswer => ?_⟩
    cases hl with
    | kept h =>
      obtain ⟨l₀, hl₀, rfl, hanswer₀⟩ := (hs.find?_iff _ _).1 h
      cases hanswer
      exact hold l₀ hl₀ _ hanswer₀
    | failed => cases hanswer
    | loaded =>
      cases hanswer
      rw [hs.loads_eq]
      exact getElem?_add_iff.2 (.inr ⟨rfl, rfl⟩)

theorem History.sound_empty : History.Sound loader {} where
  find?_iff key schema := by simp [find?]
  nodup_keys := List.nodup_nil
  loads_eq := rfl
  call_eq n key r h := by simp [History.calls] at h
  called_iff i l h := by simp at h
  stays := .nil
  loaded l hl := by cases hl
  error_iff l hl := by cases hl
  made l hl := by cases hl

/-- **The requests of a new cache** keep to what every request keeps. -/
theorem sound_history (loader : SchemaLoader) (keys : List SchemaKey) :
    (history loader keys).Sound loader := by
  induction keys using List.reverseRecOn with
  | nil => exact History.sound_empty
  | append_singleton keys key ih =>
    rw [history, List.foldl_concat]
    exact ih.add (asked_lookup loader _ key)

/-- How many of the requests were for a key that had not been resolved yet. -/
def History.unresolved (h : History) : Nat :=
  h.log.zipIdx.countP fun e => !(h.log.take e.2).any (·.resolves e.1.key)

/-- The keys that have been resolved. -/
def History.resolved (h : History) : Finset SchemaKey :=
  ((h.log.filter (·.answer.isOk)).map (·.key)).toFinset

theorem History.Sound.loads_eq_unresolved (hs : h.Sound loader) :
    h.cache.loads = h.unresolved := by
  have hcalls : h.calls.length = h.log.countP fun l => l.loaded?.isSome := by
    rw [calls, List.length_filterMap_eq_countP]
    simp [Lookup.call?]
  rw [hs.loads_eq, hcalls, unresolved]
  conv_lhs => rw [← List.zipIdx_map_fst 0 h.log, List.countP_map]
  refine List.countP_congr fun e he => ?_
  have hi := List.mem_zipIdx_iff_getElem?.1 he
  simpa using hs.called_iff e.2 e.1 hi

theorem mem_keys_iff : key ∈ c.entries.map (·.key) ↔
    ∃ schema, c.find? key.source key.typeName = some schema := by
  rw [← Option.isSome_iff_exists, find?_eq, Option.isSome_map, List.find?_isSome]
  simp

theorem History.mem_resolved_iff : key ∈ h.resolved ↔
    ∃ l ∈ h.log, l.key = key ∧ ∃ schema, l.answer = .ok schema := by
  simp only [resolved, List.mem_toFinset, List.mem_map, List.mem_filter, isOk_iff]
  exact ⟨fun ⟨l, ⟨hl, hok⟩, hkey⟩ => ⟨l, hl, hkey, hok⟩,
    fun ⟨l, hl, hkey, hok⟩ => ⟨l, ⟨hl, hok⟩, hkey⟩⟩

theorem History.Sound.size_eq (hs : h.Sound loader) : h.cache.size = h.resolved.card := by
  have hkeys : (h.cache.entries.map (·.key)).toFinset = h.resolved := by
    ext key
    rw [List.mem_toFinset, mem_keys_iff, mem_resolved_iff]
    simp only [hs.find?_iff]
    exact ⟨fun ⟨schema, l, hl, hkey, hanswer⟩ => ⟨l, hl, hkey, schema, hanswer⟩,
      fun ⟨l, hl, hkey, schema, hanswer⟩ => ⟨schema, l, hl, hkey, hanswer⟩⟩
  rw [← hkeys, List.toFinset_card_of_nodup hs.nodup_keys, List.length_map, size]

/-- For each key the loader succeeds at most once. -/
theorem History.Sound.nodup_succeeded (hs : h.Sound loader) :
    ((h.calls.filter (·.2.isOk)).map (·.1)).Nodup := by
  refine List.pairwise_map.2 (List.pairwise_filter.2 (List.pairwise_filterMap.2 ?_))
  refine hs.stays.imp_of_mem ?_
  rintro l l' hl - hstays ⟨k, r⟩ hcall ⟨k', r'⟩ hcall' hok - hkey
  obtain ⟨t, rfl⟩ := isOk_iff.1 hok
  obtain ⟨_, hloaded, heq⟩ := Option.map_eq_some_iff.1 hcall
  obtain ⟨_, hloaded', heq'⟩ := Option.map_eq_some_iff.1 hcall'
  cases heq
  cases heq'
  -- the first call was answered with a schema, so the second request made none
  obtain ⟨serial, hanswer⟩ := hs.loaded l hl t hloaded
  rw [(hstays _ hanswer hkey.symm).1] at hloaded'
  cases hloaded'

/-- What the requests so far come to, for the counter, the entries and the next request. -/
structure History.Memoizes (loader : SchemaLoader) (h : History) : Prop extends
    h.Sound loader where
  /-- The counter is the number of requests for keys that had not been resolved. -/
  loads_eq_unresolved : h.cache.loads = h.unresolved
  /-- For each key the loader has succeeded at most once. -/
  nodup_succeeded : ((h.calls.filter (·.2.isOk)).map (·.1)).Nodup
  /-- There are as many entries as keys that have been resolved. -/
  size_eq : h.cache.size = h.resolved.card
  /-- A key that has been resolved is answered with its schema, whatever the loader is. -/
  kept : ∀ l ∈ h.log, ∀ schema, l.answer = .ok schema → ∀ other : SchemaLoader,
    h.cache.resolve other l.key.source l.key.typeName = (.ok schema, h.cache, [])
  /-- A request that fails has the loader's error and leaves the entries as they are. -/
  fails : ∀ source typeName e, (h.cache.resolve loader source typeName).1 = .error e →
    loader h.cache.loads source typeName = .error e ∧
      (h.cache.resolve loader source typeName).2.1 = { h.cache with loads := h.cache.loads + 1 }

theorem History.Sound.memoizes (hs : h.Sound loader) : h.Memoizes loader where
  toSound := hs
  loads_eq_unresolved := hs.loads_eq_unresolved
  nodup_succeeded := hs.nodup_succeeded
  size_eq := hs.size_eq
  kept l hl _ hanswer := resolve_of_find? ((hs.find?_iff _ _).2 ⟨l, hl, rfl, hanswer⟩)
  fails _ _ _ hfails := resolve_eq_error hfails

/-- A history is one of requests to the cache itself. -/
theorem history_eq (loader : SchemaLoader) (keys : List SchemaKey) :
    (history loader keys).cache = after loader keys ∧
      (history loader keys).log.map (·.key) = keys ∧
      ∀ i l, (history loader keys).log[i]? = some l →
        l.answer =
          ((after loader (keys.take i)).resolve loader l.key.source l.key.typeName).1 := by
  induction keys using List.reverseRecOn with
  | nil => exact ⟨rfl, rfl, fun i l h => by simp [history] at h⟩
  | append_singleton keys key ih =>
    obtain ⟨hcache, hkeys, hanswers⟩ := ih
    obtain ⟨hanswer, hafter⟩ := lookup_eq loader (after loader keys) key
    have hstep : history loader (keys ++ [key]) = (history loader keys).ask loader key := by
      rw [history, List.foldl_concat]
      rfl
    rw [hstep, History.ask, hcache, List.map_append, hkeys, List.map_singleton, key_lookup]
    refine ⟨?_, rfl, fun i l hi => ?_⟩
    · rw [hafter, after, after, List.foldl_concat]
    · rcases getElem?_add_iff.1 hi with hold | ⟨rfl, rfl⟩
      · have hlt := (List.getElem?_eq_some_iff.1 hold).1
        rw [← List.length_map, hkeys] at hlt
        rw [List.take_append_of_le_length (Nat.le_of_lt hlt)]
        exact hanswers i l hold
      · rw [← List.length_map (f := (·.key)), hkeys, List.take_left, key_lookup, hanswer]

/-- **A cache loads each schema once.** Whatever the loader does at each of its calls, and
whichever keys are asked for: the counter is the number of requests for keys that had not
been resolved, for each key the loader succeeds at most once, and from then on every request
for the key has that same schema without a call. There are as many entries as keys that have
been resolved, and a request that fails has the loader's error and changes no entry. -/
theorem history_memoizes (loader : SchemaLoader) (keys : List SchemaKey) :
    ((history loader keys).cache = after loader keys ∧
      (history loader keys).log.map (·.key) = keys ∧
      ∀ i l, (history loader keys).log[i]? = some l →
        l.answer =
          ((after loader (keys.take i)).resolve loader l.key.source l.key.typeName).1) ∧
      (history loader keys).Memoizes loader :=
  ⟨history_eq loader keys, (sound_history loader keys).memoizes⟩

/-- The first call fails, so the loader is called for the level a second time, but not a
third. -/
example :
    let level : SchemaKey := ⟨Topic.orderBookSchema, "order_book.OrderLevel"⟩
    let book : SchemaKey := ⟨Topic.orderBookSchema, "order_book.OrderBook"⟩
    ((history (.failingFirst 1 "down" .builtin) [level, book, level, level]).log.map fun l =>
      (l.loaded?.isSome, l.answer.toOption.map (·.serial))) =
        [(true, none), (true, some 1), (true, some 2), (false, some 2)] := by
  decide +kernel

end SchemaCache

end PushFeed
