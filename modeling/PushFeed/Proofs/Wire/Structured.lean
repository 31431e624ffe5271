import PushFeed.Wire.Structured
import PushFeed.Wire.Conformance
/-!
# Structured values read back

A conforming message reads back from its structured value as it was
(`Layout.ofJson_toJson`), amounts bit for bit. The entries of an object stand by
increasing key, not in the order of the fields, so what is read must not depend on
their order: each field is set once, and setting one leaves the others alone.
-/

namespace PushFeed

/-! ## Objects -/

namespace Json

variable {key : String} {entries acc : List (String × Json)}

/-- An entry with a key of its own joins the others. -/
theorem insertEntry_perm (h : key ∉ entries.map (·.1)) (v : Json) :
    (insertEntry key v entries).Perm ((key, v) :: entries) := by
  induction entries with
  | nil => exact .refl _
  | cons e rest ih =>
    obtain ⟨k, u⟩ := e
    simp only [List.map_cons, List.mem_cons, not_or] at h
    rw [insertEntry]
    by_cases hlt : key < k
    · rw [if_pos hlt]
    · rw [if_neg hlt, if_neg h.1]
      exact ((ih h.2).cons _).trans (.swap _ _ _)

/-- An object has the entries it is made of, if no key comes twice. -/
theorem object_perm (h : (entries.map (·.1)).Nodup) :
    ∃ sorted, object entries = .obj sorted ∧ sorted.Perm entries := by
  have hall : ∀ acc : List (String × Json), ((acc ++ entries).map (·.1)).Nodup →
      (entries.foldl (fun acc e => insertEntry e.1 e.2 acc) acc).Perm (acc ++ entries) := by
    -- the entries that are there already vary in the induction, so it is over all of them
    clear h
    induction entries with
    | nil =>
      intro acc _
      rw [List.append_nil]
      exact .refl _
    | cons e rest ih =>
      intro acc hacc
      have hnew : e.1 ∉ acc.map (·.1) := by
        rw [List.map_append, List.nodup_append] at hacc
        intro hmem
        exact hacc.2.2 e.1 hmem e.1 (by simp) rfl
      have hput := insertEntry_perm hnew e.2
      have hmoved : (insertEntry e.1 e.2 acc ++ rest).Perm (acc ++ e :: rest) :=
        (hput.append_right rest).trans List.perm_middle.symm
      exact (ih _ ((hmoved.map _).nodup_iff.2 hacc)).trans hmoved
  exact ⟨_, rfl, hall [] h⟩

end Json

namespace Wire

/-! ## Values -/

theorem toNat_toUInt64 {n : Int64} (h : ¬n < 0) : (n.toUInt64.toNat : Int) = n.toInt := by
  have h0 : 0 ≤ n.toInt := by
    rw [Int64.lt_iff_toInt_lt] at h
    simpa using h
  have hvalue : n.toInt = n.toBitVec.toInt := rfl
  -- both are the same bits, and the highest is not set
  have hnat : n.toUInt64.toNat = n.toBitVec.toNat := rfl
  have hlt := n.toBitVec.isLt
  rw [hvalue, BitVec.toInt_eq_toNat_cond] at h0
  rw [hnat, hvalue, BitVec.toInt_eq_toNat_cond]
  split at h0 <;> omega

/-- An integer reads back within any range it is in. -/
theorem integerOfNumber_ofInt64 {low high : Int} (expected : String) {n : Int64}
    (hlow : low ≤ n.toInt) (hhigh : n.toInt ≤ high) :
    ∃ number, Json.ofInt64 n = .num number ∧
      integerOfNumber low high expected number = .ok n.toInt := by
  by_cases hneg : n < 0
  · refine ⟨.integer n, by rw [Json.ofInt64, if_pos hneg], ?_⟩
    rw [integerOfNumber, if_pos hlow]
  · refine ⟨.natural n.toUInt64, by rw [Json.ofInt64, if_neg hneg], ?_⟩
    rw [integerOfNumber, toNat_toUInt64 hneg, if_pos hhigh]

/-- A value that conforms reads back. -/
theorem Scalar.ofJson_toJson {s : Scalar} {x : s.Content} (h : s.bad? x = none) :
    s.ofJson (s.toJson x) = .ok x := by
  cases s with
  | amount =>
    have hfinite : Binary64.isFinite x = true := by
      cases hx : Binary64.isFinite x with
      | true => rfl
      | false => simp [bad?, amountOk, hx] at h
    simp only [toJson, Json.ofBinary64, hfinite, if_true]
    rfl
  | count =>
    have hsmall : (UInt32.toUInt64 x).toNat < twoTo 32 := by
      rw [UInt32.toNat_toUInt64]
      exact UInt32.toNat_lt x
    simp only [toJson, ofJson, Json.ofUInt32, Json.uint32Of, Json.uint32OfNumber]
    rw [if_pos hsmall]
    simp
  | moment =>
    have hlow : -(twoTo 63 : Int) ≤ Int64.toInt x := Int64.le_toInt x
    have hhigh : Int64.toInt x ≤ (twoTo 63 : Int) - 1 := Int.le_sub_one_of_lt (Int64.toInt_lt x)
    obtain ⟨number, hnum, hread⟩ := integerOfNumber_ofInt64 "i64" hlow hhigh
    simp only [toJson, hnum, ofJson, hread, Except.map, Int64.ofInt_toInt]
  | choice choices =>
    have hwide : (Int32.toInt64 x).toInt = Int32.toInt x := Int32.toInt_toInt64 x
    have hlow : -(twoTo 31 : Int) ≤ (Int32.toInt64 x).toInt := by
      rw [hwide]
      exact Int32.le_toInt x
    have hhigh : (Int32.toInt64 x).toInt ≤ (twoTo 31 : Int) - 1 := by
      rw [hwide]
      exact Int.le_sub_one_of_lt (Int32.toInt_lt x)
    obtain ⟨number, hnum, hread⟩ := integerOfNumber_ofInt64 "i32" hlow hhigh
    simp only [toJson, Json.ofInt32, hnum, ofJson, hread, Except.map, hwide, Int32.ofInt_toInt]
  | text => rfl
  | optionalText => cases x <;> rfl

/-- Items that read back do so in a list. -/
theorem listOf_map {α : Type} {item : Json → Except JsonFault α} {write : α → Json} {as : List α}
    (h : ∀ a ∈ as, item (write a) = .ok a) : listOf item (.arr (as.map write)) = .ok as := by
  show (as.map write).mapM item = .ok as
  induction as with
  | nil => rfl
  | cons a as ih =>
    rw [List.map_cons, List.mapM_cons, h a List.mem_cons_self,
      ih fun b hb => h b (List.mem_cons_of_mem _ hb)]
    rfl

/-! ## Messages -/

namespace Layout

/-- Whether the fields of every message have keys of their own. -/
def hasOwnKeys : Layout → Bool
  | .done => true
  | .scalar slot _ rest => !rest.keys.contains slot.key && rest.hasOwnKeys
  | .message slot _ inner rest =>
    !rest.keys.contains slot.key && inner.hasOwnKeys && rest.hasOwnKeys
  | .repeated slot _ inner rest =>
    !rest.keys.contains slot.key && inner.hasOwnKeys && rest.hasOwnKeys

theorem hasOwnKeys_scalar_iff {slot : Slot} {kind : Scalar} {rest : Layout} :
    (scalar slot kind rest).hasOwnKeys = true ↔ slot.key ∉ rest.keys ∧ rest.hasOwnKeys = true := by
  simp [hasOwnKeys]

theorem hasOwnKeys_message_iff {slot : Slot} {name : String} {inner rest : Layout} :
    (message slot name inner rest).hasOwnKeys = true ↔
      slot.key ∉ rest.keys ∧ inner.hasOwnKeys = true ∧ rest.hasOwnKeys = true := by
  simp [hasOwnKeys, and_assoc]

theorem hasOwnKeys_repeated_iff {slot : Slot} {name : String} {inner rest : Layout} :
    (repeated slot name inner rest).hasOwnKeys = true ↔
      slot.key ∉ rest.keys ∧ inner.hasOwnKeys = true ∧ rest.hasOwnKeys = true := by
  simp [hasOwnKeys, and_assoc]

theorem keys_entries (l : Layout) (c : l.Content) : (l.entries c).map (·.1) = l.keys := by
  induction l with
  | done => rfl
  | scalar slot kind rest ih =>
    obtain ⟨x, more⟩ := c
    rw [entries, List.map_cons, ih, keys]
  | message slot name inner rest _ ih =>
    obtain ⟨m, more⟩ := c
    cases m <;> rw [entries, List.map_cons, ih, keys]
  | repeated slot name inner rest _ ih =>
    obtain ⟨ms, more⟩ := c
    rw [entries, List.map_cons, ih, keys]

theorem nodup_keys {l : Layout} (h : l.hasOwnKeys = true) : l.keys.Nodup := by
  induction l with
  | done => exact List.nodup_nil
  | scalar slot kind rest ih =>
    obtain ⟨hkey, hrest⟩ := hasOwnKeys_scalar_iff.1 h
    exact List.nodup_cons.2 ⟨hkey, ih hrest⟩
  | message slot name inner rest _ ih =>
    obtain ⟨hkey, -, hrest⟩ := hasOwnKeys_message_iff.1 h
    exact List.nodup_cons.2 ⟨hkey, ih hrest⟩
  | repeated slot name inner rest _ ih =>
    obtain ⟨hkey, -, hrest⟩ := hasOwnKeys_repeated_iff.1 h
    exact List.nodup_cons.2 ⟨hkey, ih hrest⟩

theorem foldlM_snd {σ τ ε ι : Type} {f : σ × τ → ι → Except ε (σ × τ)} {g : τ → ι → Except ε τ}
    {es : List ι} {x : σ} {t t' : τ} (h : ∀ e ∈ es, ∀ t, f (x, t) e = (g t e).map (x, ·))
    (hg : es.foldlM g t = .ok t') : es.foldlM f (x, t) = .ok (x, t') := by
  induction es generalizing t with
  | nil =>
    cases hg
    rfl
  | cons e es ih =>
    rw [List.foldlM_cons, h e List.mem_cons_self]
    rw [List.foldlM_cons] at hg
    cases ht : g t e with
    | error fault =>
      rw [ht] at hg
      cases hg
    | ok t₁ =>
      rw [ht] at hg
      exact ih (fun e he => h e (List.mem_cons_of_mem _ he)) hg

/-- A field that is set once among fields that leave it alone, wherever it stands. -/
theorem foldlM_perm {σ : Type} {rest : Layout}
    {f : σ × rest.Content → String × Json → Except JsonFault (σ × rest.Content)} {key : String}
    {v : Json} {x y : σ} {c : rest.Content} {es : List (String × Json)} (hkey : key ∉ rest.keys)
    (hes : es.Perm ((key, v) :: rest.entries c)) (hset : ∀ t, f (x, t) (key, v) = .ok (y, t))
    (hpass : ∀ e, e.1 ≠ key → ∀ x t, f (x, t) e = (rest.setField e.1 e.2 t).map (x, ·))
    (hrest : ∀ others : List (String × Json), others.Perm (rest.entries c) →
      others.foldlM (fun t e => rest.setField e.1 e.2 t) rest.default = .ok c) :
    es.foldlM f (x, rest.default) = .ok (y, c) := by
  -- the entry stands somewhere; those before and after it are the entries of the rest
  obtain ⟨before, after, rfl⟩ := List.append_of_mem (hes.mem_iff.2 List.mem_cons_self)
  have hothers : (before ++ after).Perm (rest.entries c) :=
    (List.perm_middle.symm.trans hes).cons_inv
  have hne : ∀ e ∈ before ++ after, e.1 ≠ key := by
    intro e he heq
    have hmem := List.mem_map_of_mem (f := (·.1)) (hothers.mem_iff.1 he)
    rw [keys_entries] at hmem
    exact hkey (heq ▸ hmem)
  have hall := hrest _ hothers
  rw [List.foldlM_append] at hall ⊢
  cases hb : before.foldlM (fun t e => rest.setField e.1 e.2 t) rest.default with
  | error fault =>
    rw [hb] at hall
    cases hall
  | ok t =>
    rw [hb] at hall
    rw [foldlM_snd (fun e he => hpass e (hne e (List.mem_append_left _ he)) x) hb]
    show (f (x, t) (key, v)).bind _ = _
    rw [hset]
    exact foldlM_snd (fun e he => hpass e (hne e (List.mem_append_right _ he)) y) hall

theorem firstViolation?_eq_none_iff {α : Type} (item : α → Option Violation) (key : String)
    (index : Nat) (as : List α) :
    firstViolation? item key index as = none ↔ ∀ a ∈ as, item a = none := by
  induction as generalizing index with
  | nil => simp [firstViolation?]
  | cons a as ih =>
    rw [firstViolation?, List.forall_mem_cons]
    cases item a with
    | some v => simp
    | none => simpa using ih (index + 1)

section Conformance

variable {slot : Slot} {kind : Scalar} {name : String} {inner rest : Layout}

theorem violation?_scalar_iff {x : kind.Content} {more : rest.Content} :
    (scalar slot kind rest).violation? (x, more) = none ↔
      kind.bad? x = none ∧ rest.violation? more = none := by
  rw [violation?]
  cases kind.bad? x <;> simp

theorem violation?_message_iff {m : Option inner.Content} {more : rest.Content} :
    (message slot name inner rest).violation? (m, more) = none ↔
      (∀ i ∈ m, inner.violation? i = none) ∧ rest.violation? more = none := by
  rw [violation?]
  cases m with
  | none => simp
  | some i =>
    rw [Option.bind_some]
    cases hi : inner.violation? i <;> simp [hi]

theorem violation?_repeated_iff {ms : List inner.Content} {more : rest.Content} :
    (repeated slot name inner rest).violation? (ms, more) = none ↔
      (∀ i ∈ ms, inner.violation? i = none) ∧ rest.violation? more = none := by
  rw [violation?, ← firstViolation?_eq_none_iff inner.violation? slot.key 0 ms]
  cases firstViolation? inner.violation? slot.key 0 ms <;> simp

end Conformance

/-- A record whose fields can be set in any order reads back. -/
theorem recordOf_object {l : Layout} (hkeys : l.hasOwnKeys = true) {c : l.Content} (name : String)
    (h : ∀ es : List (String × Json), es.Perm (l.entries c) →
      es.foldlM (fun t e => l.setField e.1 e.2 t) l.default = .ok c) :
    recordOf name l.keys l.setField l.default (Json.object (l.entries c)) = .ok c := by
  have hnodup : ((l.entries c).map (·.1)).Nodup := by
    rw [keys_entries]
    exact nodup_keys hkeys
  obtain ⟨sorted, hobject, hperm⟩ := Json.object_perm hnodup
  rw [hobject, recordOf]
  exact h sorted hperm

/-- **The fields of a conforming message can be set in any order.** -/
theorem foldlM_setField {l : Layout} (hkeys : l.hasOwnKeys = true) {c : l.Content}
    (hc : l.violation? c = none) {es : List (String × Json)} (hes : es.Perm (l.entries c)) :
    es.foldlM (fun t e => l.setField e.1 e.2 t) l.default = .ok c := by
  induction l generalizing es with
  | done =>
    rw [hes.eq_nil]
    rfl
  | scalar slot kind rest ih =>
    obtain ⟨x, more⟩ := c
    obtain ⟨hkey, hothers⟩ := hasOwnKeys_scalar_iff.1 hkeys
    obtain ⟨hx, hmore⟩ := violation?_scalar_iff.1 hc
    refine foldlM_perm hkey hes (fun t => ?_) (fun e he x t => ?_)
      fun others hperm => ih hothers hmore hperm
    · rw [setField, if_pos rfl, Scalar.ofJson_toJson hx]
      rfl
    · rw [setField, if_neg he]
  | message slot name inner rest ihi ih =>
    obtain ⟨m, more⟩ := c
    obtain ⟨hkey, hinner, hothers⟩ := hasOwnKeys_message_iff.1 hkeys
    obtain ⟨hm, hmore⟩ := violation?_message_iff.1 hc
    refine foldlM_perm hkey hes (fun t => ?_) (fun e he x t => ?_)
      fun others hperm => ih hothers hmore hperm
    · rw [setField, if_pos rfl]
      cases m with
      | none => rfl
      | some i =>
        have hread := recordOf_object hinner name fun es => ihi (c := i) hinner (hm i rfl)
        show (Except.map some (recordOf name inner.keys inner.setField inner.default
          (Json.object (inner.entries i)))).map _ = _
        rw [hread]
        rfl
    · rw [setField, if_neg he]
  | repeated slot name inner rest ihi ih =>
    obtain ⟨ms, more⟩ := c
    obtain ⟨hkey, hinner, hothers⟩ := hasOwnKeys_repeated_iff.1 hkeys
    obtain ⟨hms, hmore⟩ := violation?_repeated_iff.1 hc
    refine foldlM_perm hkey hes (fun t => ?_) (fun e he x t => ?_)
      fun others hperm => ih hothers hmore hperm
    · rw [setField, if_pos rfl, listOf_map fun i hi => ?_]
      · rfl
      · exact recordOf_object hinner name fun es => ihi hinner (hms i hi)
    · rw [setField, if_neg he]

/-- **A conforming message reads back from its structured value.** -/
theorem ofJson_toJson {l : Layout} (hkeys : l.hasOwnKeys = true) {c : l.Content}
    (hc : l.violation? c = none) (name : String) : l.ofJson name (l.toJson c) = .ok c :=
  recordOf_object hkeys name fun _ => foldlM_setField hkeys hc

end Layout

end Wire

end PushFeed
