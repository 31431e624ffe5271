import PushFeed.Proofs.Wire.RoundTrip
import PushFeed.Proofs.Wire.Structured
/-!
# Normal forms

What reads back from a message's own frame is its normal form. It has the same frame
(`Layout.encode_normal`), and its structured value is that of the message with the
negative zeros as zeros (`Layout.toJson_normal`). Every structured value of a layout is
complete: it has all fields, each under its name in camel case (`Layout.complete_toJson`).
-/

namespace PushFeed

/-! ## Negative zeros -/

/-- A number with the sign of a zero taken off. -/
def JsonNumber.plainZero : JsonNumber → JsonNumber
  | .natural n => .natural n
  | .integer n => .integer n
  | .double d => .double (if d.isZero then Binary64.zero else d)

namespace Json

mutual

/-- A value with all negative zeros in it as zeros. -/
def plainZeros : Json → Json
  | .null => .null
  | .bool b => .bool b
  | .num n => .num n.plainZero
  | .str s => .str s
  | .arr items => .arr (plainItems items)
  | .obj entries => .obj (plainEntries entries)

/-- Values with all negative zeros in them as zeros. -/
def plainItems : List Json → List Json
  | [] => []
  | v :: rest => v.plainZeros :: plainItems rest

/-- Named values with all negative zeros in them as zeros. -/
def plainEntries : List (String × Json) → List (String × Json)
  | [] => []
  | (key, v) :: rest => (key, v.plainZeros) :: plainEntries rest

end

variable {entries : List (String × Json)}

theorem plainItems_eq (items : List Json) : plainItems items = items.map plainZeros := by
  induction items with
  | nil => rfl
  | cons v rest ih => rw [plainItems, ih, List.map_cons]

theorem plainEntries_eq (entries : List (String × Json)) :
    plainEntries entries = entries.map fun e => (e.1, e.2.plainZeros) := by
  induction entries with
  | nil => rfl
  | cons e rest ih =>
    obtain ⟨key, v⟩ := e
    rw [plainEntries, ih, List.map_cons]

/-- An entry is put in the same place whatever its value is. -/
theorem insertEntry_map (change : Json → Json) (key : String) (v : Json) :
    insertEntry key (change v) (entries.map fun e => (e.1, change e.2)) =
      (insertEntry key v entries).map fun e => (e.1, change e.2) := by
  induction entries with
  | nil => rfl
  | cons e rest ih =>
    obtain ⟨k, u⟩ := e
    simp only [List.map_cons, insertEntry]
    split
    · rfl
    · split
      · rfl
      · rw [ih, List.map_cons]

theorem plainZeros_object (entries : List (String × Json)) :
    (object entries).plainZeros = object (entries.map fun e => (e.1, e.2.plainZeros)) := by
  have hall : ∀ acc : List (String × Json),
      (entries.foldl (fun acc e => insertEntry e.1 e.2 acc) acc).map
          (fun e => (e.1, e.2.plainZeros)) =
        (entries.map fun e => (e.1, e.2.plainZeros)).foldl
          (fun acc e => insertEntry e.1 e.2 acc) (acc.map fun e => (e.1, e.2.plainZeros)) := by
    induction entries with
    | nil => exact fun acc => rfl
    | cons e rest ih =>
      intro acc
      rw [List.foldl_cons, ih, List.map_cons, List.foldl_cons, insertEntry_map]
  rw [object, plainZeros, plainEntries_eq, hall []]
  rfl

/-- Integers have no negative zero. -/
theorem plainZeros_ofInt64 (n : Int64) : (ofInt64 n).plainZeros = ofInt64 n := by
  unfold ofInt64
  split <;> rfl

/-- The value under a key of an object that has each key once. -/
theorem get?_object {key : String} {v : Json} (h : (entries.map (·.1)).Nodup)
    (hmem : (key, v) ∈ entries) : (object entries).get? key = some v := by
  obtain ⟨sorted, heq, hperm⟩ := object_perm h
  have hnodup : (sorted.map (·.1)).Nodup := (hperm.map _).nodup_iff.2 h
  have hsorted : (key, v) ∈ sorted := hperm.mem_iff.2 hmem
  rw [heq, get?]
  clear heq hperm
  induction sorted with
  | nil => cases hsorted
  | cons e rest ih =>
    obtain ⟨k, u⟩ := e
    rw [List.map_cons, List.nodup_cons] at hnodup
    rw [List.lookup_cons]
    rcases List.mem_cons.1 hsorted with heq | hrest
    · cases heq
      rw [beq_self_eq_true]
    · -- the key stands further on, so it is not the first one
      have hne : key ≠ k := by
        rintro rfl
        exact hnodup.1 (List.mem_map_of_mem (f := (·.1)) hrest)
      rw [beq_false_of_ne hne]
      exact ih hnodup.2 hrest

end Json

namespace Wire

/-! ## Plain kinds -/

namespace Scalar

/-- The sign of a zero is not written. -/
theorem encode_normal (number : Nat) (s : Scalar) (x : s.Content) :
    s.encode number (s.normal x) = s.encode number x := by
  cases s with
  | amount =>
    cases hz : Binary64.isZero x with
    | true => simp [encode, normal, hz, show Binary64.zero.isZero = true by decide]
    | false => simp [normal, hz]
  | count | moment | choice | text | optionalText => rfl

theorem toJson_normal (s : Scalar) (x : s.Content) :
    s.toJson (s.normal x) = (s.toJson x).plainZeros := by
  cases s with
  | amount =>
    cases hz : Binary64.isZero x with
    | true =>
      -- a zero is finite, with its sign or without
      have hfinite : Binary64.isFinite x = true := by
        have hmag : Binary64.magnitude x = 0 := by simpa [Binary64.isZero] using hz
        simp [Binary64.isFinite, hmag, Binary64.infiniteMagnitude]
      simp only [normal, toJson, Json.ofBinary64, hz, hfinite, if_true, Json.plainZeros,
        JsonNumber.plainZero, show Binary64.zero.isFinite = true by decide]
    | false =>
      simp only [normal, toJson, Json.ofBinary64, hz, Bool.false_eq_true, if_false]
      split
      · simp only [Json.plainZeros, JsonNumber.plainZero, hz, Bool.false_eq_true, if_false]
      · rfl
  | count => rfl
  | moment => exact (Json.plainZeros_ofInt64 _).symm
  | choice => exact (Json.plainZeros_ofInt64 _).symm
  | text => rfl
  | optionalText => cases x <;> rfl

end Scalar

/-! ## Messages -/

namespace Layout

/-- **The normal form has the same frame.** -/
theorem encode_normal (l : Layout) (c : l.Content) : l.encode (l.normal c) = l.encode c := by
  induction l with
  | done => rfl
  | scalar slot kind rest ih =>
    obtain ⟨x, more⟩ := c
    rw [normal, encode, encode, Scalar.encode_normal, ih]
  | message slot name inner rest ihi ih =>
    obtain ⟨m, more⟩ := c
    cases m with
    | none => simp only [normal, encode, Option.map_none, ih]
    | some i => simp only [normal, encode, Option.map_some, ihi, ih]
  | repeated slot name inner rest ihi ih =>
    obtain ⟨ms, more⟩ := c
    simp only [normal, encode, List.flatMap_map, ihi, ih]

theorem entries_normal (l : Layout) (c : l.Content) :
    l.entries (l.normal c) = (l.entries c).map fun e => (e.1, e.2.plainZeros) := by
  induction l with
  | done => rfl
  | scalar slot kind rest ih =>
    obtain ⟨x, more⟩ := c
    simp only [normal, entries, List.map_cons, Scalar.toJson_normal, ih]
  | message slot name inner rest ihi ih =>
    obtain ⟨m, more⟩ := c
    cases m with
    | none => simp only [normal, entries, Option.map_none, List.map_cons, Json.plainZeros, ih]
    | some i =>
      simp only [normal, entries, Option.map_some, List.map_cons, Json.plainZeros_object, ihi, ih]
  | repeated slot name inner rest ihi ih =>
    obtain ⟨ms, more⟩ := c
    simp only [normal, entries, List.map_cons, List.map_map, Json.plainZeros, Json.plainItems_eq,
      Function.comp_def, Json.plainZeros_object, ihi, ih]

/-- **The structured value of the normal form** has its negative zeros as zeros. -/
theorem toJson_normal (l : Layout) (c : l.Content) :
    l.toJson (l.normal c) = (l.toJson c).plainZeros := by
  rw [toJson, toJson, entries_normal, Json.plainZeros_object]

end Layout

/-! ## Complete values -/

/-- A name of several words in camel case: underscores go, and the letters after them
become capitals. -/
def camelCase (name : String) : String := String.ofList (joined name.toList)
where
  /-- The same for the characters of a name. -/
  joined : List Char → List Char
    | [] => []
    | '_' :: c :: rest => c.toUpper :: joined rest
    | c :: rest => c :: joined rest

namespace Layout

/-- Whether all fields have their names in camel case as keys. -/
def hasCamelKeys : Layout → Bool
  | .done => true
  | .scalar slot _ rest => camelCase slot.name == slot.key && rest.hasCamelKeys
  | .message slot _ inner rest =>
    camelCase slot.name == slot.key && inner.hasCamelKeys && rest.hasCamelKeys
  | .repeated slot _ inner rest =>
    camelCase slot.name == slot.key && inner.hasCamelKeys && rest.hasCamelKeys

/-- Whether a value has every field of a layout under its name in camel case, and so do
the messages inside it. A message that is absent is null. -/
def Complete : Layout → Json → Prop
  | .done, _ => True
  | .scalar slot _ rest, v => (∃ x, v.get? (camelCase slot.name) = some x) ∧ rest.Complete v
  | .message slot _ inner rest, v =>
    (v.get? (camelCase slot.name) = some .null ∨
      ∃ x, v.get? (camelCase slot.name) = some x ∧ inner.Complete x) ∧ rest.Complete v
  | .repeated slot _ inner rest, v =>
    (∃ xs, v.get? (camelCase slot.name) = some (.arr xs) ∧ ∀ x ∈ xs, inner.Complete x) ∧
      rest.Complete v

/-- A value that has the entries of a message is complete. -/
theorem complete_of_entries {l : Layout} (hkeys : l.hasOwnKeys = true)
    (hcamel : l.hasCamelKeys = true) {c : l.Content} {v : Json}
    (h : ∀ key x, (key, x) ∈ l.entries c → v.get? key = some x) : l.Complete v := by
  induction l generalizing v with
  | done => trivial
  | scalar slot kind rest ih =>
    obtain ⟨x, more⟩ := c
    simp only [hasCamelKeys, Bool.and_eq_true, beq_iff_eq] at hcamel
    obtain ⟨-, hrest⟩ := hasOwnKeys_scalar_iff.1 hkeys
    refine ⟨⟨kind.toJson x, ?_⟩, ih (c := more) hrest hcamel.2 fun key x hmem => ?_⟩
    · rw [hcamel.1]
      exact h _ _ List.mem_cons_self
    · exact h key x (List.mem_cons_of_mem _ hmem)
  | message slot name inner rest ihi ih =>
    obtain ⟨m, more⟩ := c
    simp only [hasCamelKeys, Bool.and_eq_true, beq_iff_eq] at hcamel
    obtain ⟨-, hinner, hrest⟩ := hasOwnKeys_message_iff.1 hkeys
    refine ⟨?_, ih (c := more) hrest hcamel.2 fun key x hmem =>
      h key x (List.mem_cons_of_mem _ hmem)⟩
    have hfirst := h _ _ List.mem_cons_self
    rw [hcamel.1.1]
    cases m with
    | none => exact .inl hfirst
    | some i =>
      refine .inr ⟨_, hfirst, ihi (c := i) hinner hcamel.1.2 fun key x hmem => ?_⟩
      exact Json.get?_object (by rw [keys_entries]; exact nodup_keys hinner) hmem
  | repeated slot name inner rest ihi ih =>
    obtain ⟨ms, more⟩ := c
    simp only [hasCamelKeys, Bool.and_eq_true, beq_iff_eq] at hcamel
    obtain ⟨-, hinner, hrest⟩ := hasOwnKeys_repeated_iff.1 hkeys
    refine ⟨?_, ih (c := more) hrest hcamel.2 fun key x hmem =>
      h key x (List.mem_cons_of_mem _ hmem)⟩
    rw [hcamel.1.1]
    refine ⟨_, h _ _ List.mem_cons_self, fun x hx => ?_⟩
    obtain ⟨i, -, rfl⟩ := List.mem_map.1 hx
    refine ihi (c := i) hinner hcamel.1.2 fun key x hmem => ?_
    exact Json.get?_object (by rw [keys_entries]; exact nodup_keys hinner) hmem

/-- **The structured value of a message is complete.** -/
theorem complete_toJson {l : Layout} (hkeys : l.hasOwnKeys = true)
    (hcamel : l.hasCamelKeys = true) (c : l.Content) : l.Complete (l.toJson c) := by
  refine complete_of_entries hkeys hcamel (c := c) fun key x hmem => ?_
  exact Json.get?_object (by rw [keys_entries]; exact nodup_keys hkeys) hmem

end Layout

end Wire

end PushFeed
