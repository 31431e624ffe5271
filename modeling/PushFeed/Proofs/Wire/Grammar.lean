import PushFeed.Proofs.Wire.Spelling
/-!
# The frames that can be read

Which bytes are a frame is said here without reading them. A field is a key and a value
that a field of its number and wire type may have: a declared field has the values of its
kind (`Layout.IsValue`), any other one those that are passed over (`IsSkipped`). A frame is
fields one behind another (`AreFields`), in any order and any spelling.

Reading takes exactly such bytes off the front, whatever follows them (`Takes`), so exactly
the frames are read to their end (`Layout.decode_eq_ok_iff`).
-/

namespace PushFeed.Wire

/-! ## Fields -/

/-- Whether bytes are a field with one of the given values. -/
def IsField (values : Nat → WireType → Bytes → Prop) (f : Bytes) : Prop :=
  ∃ k number w v, f = k ++ v ∧ IsKey k number w ∧ values number w v

/-- Whether bytes are fields, one behind another. -/
inductive AreFields (values : Nat → WireType → Bytes → Prop) : Bytes → Prop
  /-- No field. -/
  | nil : AreFields values []
  /-- A field and more of them. -/
  | cons {f more : Bytes} (hf : IsField values f) (hmore : AreFields values more) :
      AreFields values (f ++ more)

section Fields

variable {values : Nat → WireType → Bytes → Prop} {f bytes more : Bytes}

theorem IsField.ne_nil (h : IsField values f) : f ≠ [] := by
  obtain ⟨k, number, w, v, rfl, hk, -⟩ := h
  simp [hk.ne_nil]

theorem AreFields.single (h : IsField values f) : AreFields values f := by
  have hfields := AreFields.cons h .nil
  rwa [List.append_nil] at hfields

theorem AreFields.append (h : AreFields values bytes) (h' : AreFields values more) :
    AreFields values (bytes ++ more) := by
  induction h with
  | nil => exact h'
  | cons hf _ ih =>
    rw [List.append_assoc]
    exact .cons hf ih

/-- The first of some fields. -/
theorem AreFields.exists_of_ne_nil (h : AreFields values bytes) (hne : bytes ≠ []) :
    ∃ number w v more, readKey bytes = .ok (number, w, v ++ more) ∧ values number w v ∧
      AreFields values more := by
  cases h with
  | nil => exact absurd rfl hne
  | @cons f more hf hmore =>
    obtain ⟨k, number, w, v, rfl, hk, hv⟩ := hf
    exact ⟨number, w, v, more, by rw [List.append_assoc, hk.read], hv, hmore⟩

end Fields

/-! ## Fields that are passed over -/

/-- The values that are passed over, with groups nested at most so deep. A group is any
fields and the key that ends it. -/
def IsSkipped : Nat → Nat → WireType → Bytes → Prop
  | 0, _, _, _ => False
  | _ + 1, _, .varint, v => ∃ n, IsNumber v n
  | _ + 1, _, .sixtyFour, v => v.length = 8
  | _ + 1, _, .thirtyTwo, v => v.length = 4
  | _ + 1, _, .delimited, v => ∃ body, IsBody v body
  | depth + 1, number, .startGroup, v =>
    ∃ inner stop, v = inner ++ stop ∧ AreFields (IsSkipped depth) inner ∧
      IsKey stop number .endGroup
  | _ + 1, _, .endGroup, _ => False

theorem not_isSkipped_endGroup {depth number : Nat} {v : Bytes} :
    ¬IsSkipped depth number .endGroup v := by
  cases depth <;> exact id

theorem takeBytes_eq_ok_iff {count : Nat} {bytes body rest : Bytes} :
    takeBytes count bytes = .ok (body, rest) ↔ body.length = count ∧ bytes = body ++ rest := by
  refine ⟨takeBytes_eq_ok, ?_⟩
  rintro ⟨rfl, rfl⟩
  exact takeBytes_append body rest

theorem map_snd_eq_ok_iff {α : Type} {x : Except Cause (α × Bytes)} {rest : Bytes} :
    x.map (·.2) = .ok rest ↔ ∃ a, x = .ok (a, rest) := by
  constructor
  · intro h
    obtain ⟨⟨a, left⟩, hx, rfl⟩ := exists_of_map_eq_ok h
    exact ⟨a, hx⟩
  · rintro ⟨a, rfl⟩
    rfl

section Skipping

variable {skip : WireType → Nat → Bytes → Except Cause Bytes}
  {values : Nat → WireType → Bytes → Prop} {number fuel : Nat} {bytes inner stop rest : Bytes}

/-- What is passed over up to the end of a group are fields and the key of the end. -/
theorem exists_of_skipGroupWithin
    (hskip : ∀ w number bytes rest, skip w number bytes = .ok rest →
      ∃ v, bytes = v ++ rest ∧ values number w v)
    (h : skipGroupWithin skip number fuel bytes = .ok rest) :
    ∃ inner stop, bytes = inner ++ stop ++ rest ∧ AreFields values inner ∧
      IsKey stop number .endGroup := by
  induction fuel generalizing bytes with
  | zero => cases h
  | succ fuel ih =>
    obtain ⟨⟨found, w, left⟩, hkey, hstep⟩ := exists_of_bind_eq_ok h
    obtain ⟨k, rfl, hk⟩ := readKey_eq_ok_iff.1 hkey
    simp only at hstep
    split at hstep
    · rename_i hend
      subst hend
      split at hstep
      · rename_i hsame
        cases hstep
        exact ⟨[], k, rfl, .nil, hsame ▸ hk⟩
      · cases hstep
    · obtain ⟨left', hvalue, hmore⟩ := exists_of_bind_eq_ok hstep
      obtain ⟨v, rfl, hv⟩ := hskip _ _ _ _ hvalue
      obtain ⟨inner, stop, rfl, hinner, hstop⟩ := ih hmore
      exact ⟨k ++ v ++ inner, stop, by simp, .cons ⟨k, found, w, v, rfl, hk, hv⟩ hinner, hstop⟩

/-- Fields and the key that ends their group are passed over. -/
theorem skipGroupWithin_of_fields
    (hskip : ∀ w number v rest, values number w v → skip w number (v ++ rest) = .ok rest)
    (hend : ∀ number v, ¬values number .endGroup v) (hinner : AreFields values inner)
    (hstop : IsKey stop number .endGroup) (hfuel : (inner ++ stop ++ rest).length ≤ fuel) :
    skipGroupWithin skip number fuel (inner ++ stop ++ rest) = .ok rest := by
  induction hinner generalizing fuel with
  | nil =>
    have hpos := List.length_pos_iff.2 hstop.ne_nil
    simp only [List.length_append] at hfuel
    cases fuel with
    | zero => omega
    | succ fuel =>
      rw [skipGroupWithin, List.nil_append, hstop.read]
      exact if_pos rfl
  | @cons f more hf hmore ih =>
    obtain ⟨k, found, w, v, rfl, hk, hv⟩ := hf
    have hpos := List.length_pos_iff.2 hk.ne_nil
    simp only [List.length_append] at hfuel
    cases fuel with
    | zero => omega
    | succ fuel =>
      have hw : w ≠ .endGroup := by
        rintro rfl
        exact hend _ _ hv
      simp only [skipGroupWithin, List.append_assoc, hk.read]
      show (if w = .endGroup then _ else _) = _
      rw [if_neg hw, hskip _ _ _ _ hv, ← List.append_assoc more]
      exact ih (by simp only [List.length_append]; omega)

end Skipping

/-- **What is passed over are the values of the grammar.** -/
theorem skipField_eq_ok_iff {depth number : Nat} {w : WireType} {bytes rest : Bytes} :
    skipField depth w number bytes = .ok rest ↔
      ∃ v, bytes = v ++ rest ∧ IsSkipped depth number w v := by
  induction depth generalizing w number bytes rest with
  | zero => simp [skipField, IsSkipped]
  | succ depth ih =>
    cases w with
    | varint =>
      simp only [skipField, IsSkipped, map_snd_eq_ok_iff, readVarint_eq_ok_iff]
      exact ⟨fun ⟨n, v, hbytes, hv⟩ => ⟨v, hbytes, n, hv⟩,
        fun ⟨v, hbytes, n, hv⟩ => ⟨n, v, hbytes, hv⟩⟩
    | thirtyTwo | sixtyFour =>
      simp only [skipField, IsSkipped, map_snd_eq_ok_iff, takeBytes_eq_ok_iff]
      exact ⟨fun ⟨v, hlength, hbytes⟩ => ⟨v, hbytes, hlength⟩,
        fun ⟨v, hbytes, hlength⟩ => ⟨v, hlength, hbytes⟩⟩
    | delimited =>
      simp only [skipField, IsSkipped, map_snd_eq_ok_iff, readDelimited_eq_ok_iff]
      exact ⟨fun ⟨body, v, hbytes, hv⟩ => ⟨v, hbytes, body, hv⟩,
        fun ⟨v, hbytes, body, hv⟩ => ⟨body, v, hbytes, hv⟩⟩
    | startGroup =>
      constructor
      · intro h
        have hskip : ∀ w number bytes rest, skipField depth w number bytes = .ok rest →
            ∃ v, bytes = v ++ rest ∧ IsSkipped depth number w v := fun _ _ _ _ => ih.1
        obtain ⟨inner, stop, rfl, hinner, hstop⟩ := exists_of_skipGroupWithin hskip h
        exact ⟨inner ++ stop, rfl, inner, stop, rfl, hinner, hstop⟩
      · rintro ⟨v, rfl, inner, stop, rfl, hinner, hstop⟩
        exact skipGroupWithin_of_fields (fun w number v rest hv => ih.2 ⟨v, rfl, hv⟩)
          (fun _ _ => not_isSkipped_endGroup) hinner hstop (Nat.le_succ _)
    | endGroup => simp [skipField, IsSkipped]

/-! ## Values of declared fields -/

/-- The values of a plain kind. -/
def Scalar.IsValue : Scalar → WireType → Bytes → Prop
  | .amount, w, v => w = .sixtyFour ∧ v.length = 8
  | .count, w, v => w = .varint ∧ ∃ n, IsNumber v n
  | .moment, w, v => w = .varint ∧ ∃ n, IsNumber v n
  | .choice _, w, v => w = .varint ∧ ∃ n, IsNumber v n
  | .text, w, v => w = .delimited ∧ ∃ s, IsBody v (utf8 s)
  | .optionalText, w, v => w = .delimited ∧ ∃ s, IsBody v (utf8 s)

/-- The values of a nested message: fields behind their length, one level further down. -/
def IsNested (values : Nat → Nat → WireType → Bytes → Prop) : Nat → WireType → Bytes → Prop
  | 0, _, _ => False
  | depth + 1, w, v => w = .delimited ∧ ∃ body, IsBody v body ∧ AreFields (values depth) body

/-- The values that a field of a number may have in a message. -/
def Layout.IsValue : Layout → Nat → Nat → WireType → Bytes → Prop
  | .done, depth, number, w, v => IsSkipped depth number w v
  | .scalar slot kind rest, depth, number, w, v =>
    if number = slot.number then kind.IsValue w v else rest.IsValue depth number w v
  | .message slot _ inner rest, depth, number, w, v =>
    if number = slot.number then IsNested inner.IsValue depth w v
    else rest.IsValue depth number w v
  | .repeated slot _ inner rest, depth, number, w, v =>
    if number = slot.number then IsNested inner.IsValue depth w v
    else rest.IsValue depth number w v

/-! ## Readers that take exactly such values -/

/-- A reader of fields takes the given values off the front, whatever follows them, and
nothing else. -/
structure Takes {α : Type} (values : Nat → WireType → Bytes → Prop)
    (field : Nat → WireType → α → Bytes → Except Fault (α × Bytes)) : Prop where
  /-- What is taken is a value. -/
  sound : ∀ {number w a bytes a' rest}, field number w a bytes = .ok (a', rest) →
    ∃ v, bytes = v ++ rest ∧ values number w v
  /-- A value is taken. -/
  complete : ∀ {number w v}, values number w v →
    ∀ a, ∃ a', ∀ rest, field number w a (v ++ rest) = .ok (a', rest)

/-- Fields, in any spelling, that lead from one message to another when they are merged
into it in turn. -/
inductive Merges {α : Type} (field : Nat → WireType → α → Bytes → Except Fault (α × Bytes)) :
    α → Bytes → α → Prop
  /-- No field. -/
  | nil (a : α) : Merges field a [] a
  /-- A field and more of them. -/
  | cons {k v more : Bytes} {number : Nat} {w : WireType} {a a' a'' : α} (hk : IsKey k number w)
      (hv : ∀ rest, field number w a (v ++ rest) = .ok (a', rest))
      (hmore : Merges field a' more a'') : Merges field a (k ++ v ++ more) a''

section Readers

variable {α : Type} {field : Nat → WireType → α → Bytes → Except Fault (α × Bytes)}
  {values : Nat → WireType → Bytes → Prop} {a a' a'' : α} {bytes more rest : Bytes}
  {limit fuel : Nat}

namespace Merges

theorem append (h : Merges field a bytes a') (h' : Merges field a' more a'') :
    Merges field a (bytes ++ more) a'' := by
  induction h with
  | nil => exact h'
  | cons hk hv _ ih =>
    rw [List.append_assoc]
    exact cons hk hv (ih h')

/-- Reading goes through fields, up to what follows them. -/
theorem exists_fuel (h : Merges field a bytes a') (rest : Bytes) (hlimit : limit ≤ rest.length)
    (hfuel : (bytes ++ rest).length ≤ fuel) :
    ∃ fuel', rest.length ≤ fuel' ∧
      readFieldsWithin field limit fuel a (bytes ++ rest) =
        readFieldsWithin field limit fuel' a' rest := by
  induction h generalizing fuel with
  | nil => exact ⟨fuel, hfuel, rfl⟩
  | @cons k v more number w a a' a'' hk hv hmore ih =>
    have hpos := List.length_pos_iff.2 hk.ne_nil
    simp only [List.length_append] at hfuel
    cases fuel with
    | zero => omega
    | succ fuel =>
      have hlong : ¬(k ++ v ++ more ++ rest).length ≤ limit := by
        simp only [List.length_append]
        omega
      obtain ⟨fuel', hfuel', heq⟩ := ih (show (more ++ rest).length ≤ fuel by
        simp only [List.length_append]
        omega)
      refine ⟨fuel', hfuel', ?_⟩
      rw [readFieldsWithin, if_neg hlong, List.append_assoc, List.append_assoc, hk.read]
      show (field number w a (v ++ (more ++ rest))).bind _ = _
      rw [hv]
      exact heq

/-- Fields that end where reading is to stop are read to their end. -/
theorem readFieldsWithin_eq (h : Merges field a bytes a') (rest : Bytes)
    (hfuel : (bytes ++ rest).length ≤ fuel) :
    readFieldsWithin field rest.length fuel a (bytes ++ rest) = .ok (a', rest) := by
  obtain ⟨fuel', -, heq⟩ := h.exists_fuel rest (Nat.le_refl _) hfuel
  rw [heq, readFieldsWithin_of_le (Nat.le_refl _)]

end Merges

namespace Takes

/-- What is taken does not depend on what follows. -/
theorem taken (h : Takes values field) {number : Nat} {w : WireType}
    (hread : field number w a bytes = .ok (a', rest)) :
    ∃ v, bytes = v ++ rest ∧ values number w v ∧
      ∀ rest', field number w a (v ++ rest') = .ok (a', rest') := by
  obtain ⟨v, rfl, hv⟩ := h.sound hread
  obtain ⟨b, hb⟩ := h.complete hv a
  obtain rfl : b = a' := by
    have heq := (hb rest).symm.trans hread
    cases heq
    rfl
  exact ⟨v, rfl, hv, hb⟩

/-- Fields lead from every message to some other one. -/
theorem exists_merges (h : Takes values field) (hbytes : AreFields values bytes) (a : α) :
    ∃ a', Merges field a bytes a' := by
  induction hbytes generalizing a with
  | nil => exact ⟨a, .nil a⟩
  | cons hf _ ih =>
    obtain ⟨k, number, w, v, rfl, hk, hv⟩ := hf
    obtain ⟨a', ha'⟩ := h.complete hv a
    obtain ⟨a'', ha''⟩ := ih a'
    exact ⟨a'', .cons hk ha' ha''⟩

/-- What is read up to a limit are fields. -/
theorem exists_of_readFieldsWithin (h : Takes values field) (hfuel : bytes.length ≤ fuel)
    (hread : readFieldsWithin field limit fuel a bytes = .ok (a', rest)) :
    rest.length ≤ limit ∧
      ∃ v, bytes = v ++ rest ∧ AreFields values v ∧ Merges field a v a' := by
  induction fuel generalizing a bytes with
  | zero =>
    cases hread
    exact ⟨by omega, [], rfl, .nil, .nil _⟩
  | succ fuel ih =>
    rw [readFieldsWithin] at hread
    split at hread
    · rename_i hend
      cases hread
      exact ⟨hend, [], rfl, .nil, .nil _⟩
    · obtain ⟨⟨number, w, left⟩, hkey, hread⟩ := exists_of_bind_eq_ok hread
      obtain ⟨⟨a₁, left'⟩, hvalue, hmore⟩ := exists_of_bind_eq_ok hread
      obtain ⟨k, rfl, hk⟩ := readKey_eq_ok_iff.1 (eq_ok_of_bare hkey)
      obtain ⟨v, rfl, hv, hagain⟩ := h.taken hvalue
      have hpos := List.length_pos_iff.2 hk.ne_nil
      simp only [List.length_append] at hfuel
      obtain ⟨hend, more, rfl, hfields, hmerges⟩ := ih (by omega) hmore
      exact ⟨hend, k ++ v ++ more, by simp, .cons ⟨k, number, w, v, rfl, hk, hv⟩ hfields,
        .cons hk hagain hmerges⟩

variable {nested : Nat → Nat → WireType → α → Bytes → Except Fault (α × Bytes)}
  {nestedValues : Nat → Nat → WireType → Bytes → Prop} {depth : Nat} {w : WireType}

/-- What is read of a nested message is a value of one. -/
theorem exists_of_readNested (h : ∀ depth, Takes (nestedValues depth) (nested depth))
    (hread : readNested nested depth w a bytes = .ok (a', rest)) :
    ∃ v, bytes = v ++ rest ∧ IsNested nestedValues depth w v := by
  obtain ⟨_, hw, hnested⟩ := exists_of_bind_eq_ok hread
  obtain rfl := Scalar.eq_ok_of_expectWire (eq_ok_of_bare hw)
  cases depth with
  | zero => cases hnested
  | succ depth =>
    obtain ⟨⟨count, left⟩, hcount, hinner⟩ := exists_of_bind_eq_ok hnested
    obtain ⟨len, rfl, hlen⟩ := readVarint_eq_ok_iff.1 (eq_ok_of_bare hcount)
    simp only at hinner
    split at hinner
    · cases hinner
    · rename_i henough
      obtain ⟨⟨a₁, left'⟩, hfields, hlast⟩ := exists_of_bind_eq_ok hinner
      obtain ⟨-, body, rfl, hbody, -⟩ :=
        (h depth).exists_of_readFieldsWithin (Nat.le_refl _) hfields
      simp only at hlast
      split at hlast
      · rename_i hend
        cases hlast
        have hlength : body.length = count := by
          simp only [List.length_append] at henough hend
          omega
        exact ⟨len ++ body, by simp, rfl, body, ⟨len, rfl, by rwa [hlength]⟩, hbody⟩
      · cases hlast

/-- A value of a nested message is read. -/
theorem readNested_of_isNested (h : ∀ depth, Takes (nestedValues depth) (nested depth)) {v : Bytes}
    (hv : IsNested nestedValues depth w v) (a : α) :
    ∃ a', ∀ rest, readNested nested depth w a (v ++ rest) = .ok (a', rest) := by
  cases depth with
  | zero => exact hv.elim
  | succ depth =>
    obtain ⟨rfl, body, ⟨len, rfl, hlen⟩, hbody⟩ := hv
    obtain ⟨a', ha'⟩ := (h depth).exists_merges hbody a
    refine ⟨a', fun rest => ?_⟩
    have hread := ha'.readFieldsWithin_eq rest (Nat.le_refl _)
    have henough : ¬(body ++ rest).length < body.length := by
      simp only [List.length_append]
      omega
    have hlimit : (body ++ rest).length - body.length = rest.length := by
      simp only [List.length_append]
      omega
    simp only [readNested, List.append_assoc, hlen.read]
    show (if (body ++ rest).length < body.length then _ else _) = _
    rw [if_neg henough, hlimit, hread]
    exact if_pos rfl

end Takes

end Readers

/-! ## Plain kinds -/

namespace Scalar

variable {s : Scalar} {w : WireType} {bytes rest v : Bytes} {x : s.Content}

theorem isValue_of_readText {t : String} (h : read.readText w bytes = .ok (t, rest)) :
    ∃ v, bytes = v ++ rest ∧ w = .delimited ∧ ∃ s, IsBody v (utf8 s) := by
  obtain ⟨_, hw, hstep⟩ := exists_of_bind_eq_ok h
  obtain ⟨⟨body, left⟩, hbody, hend⟩ := exists_of_bind_eq_ok hstep
  obtain ⟨v, rfl, hv⟩ := readDelimited_eq_ok_iff.1 hbody
  simp only at hend
  cases htext : ofUtf8? body with
  | none =>
    rw [htext] at hend
    cases hend
  | some t' =>
    rw [htext] at hend
    cases hend
    exact ⟨v, rfl, eq_ok_of_expectWire hw, t, by rwa [utf8_of_ofUtf8? htext]⟩

theorem readText_of_isBody {t : String} (h : IsBody v (utf8 t)) (rest : Bytes) :
    read.readText .delimited (v ++ rest) = .ok (t, rest) := by
  simp only [read.readText, expectWire, if_true]
  rw [h.read]
  simp only [bind, Except.bind, ofUtf8?_utf8]

/-- What is read of a plain kind is one of its values. -/
theorem isValue_of_read (h : s.read w bytes = .ok (x, rest)) :
    ∃ v, bytes = v ++ rest ∧ s.IsValue w v := by
  cases s with
  | amount =>
    rw [read] at h
    obtain ⟨_, hw, hstep⟩ := exists_of_bind_eq_ok h
    obtain ⟨⟨body, left⟩, hbody, hend⟩ := exists_of_bind_eq_ok hstep
    obtain ⟨hlength, rfl⟩ := takeBytes_eq_ok hbody
    cases hend
    exact ⟨body, rfl, eq_ok_of_expectWire hw, hlength⟩
  | count | moment | choice =>
    rw [read] at h
    obtain ⟨_, hw, hstep⟩ := exists_of_bind_eq_ok h
    obtain ⟨⟨n, left⟩, hn, hend⟩ := exists_of_bind_eq_ok hstep
    obtain ⟨v, rfl, hv⟩ := readVarint_eq_ok_iff.1 hn
    cases hend
    exact ⟨v, rfl, eq_ok_of_expectWire hw, n, hv⟩
  | text | optionalText =>
    rw [read] at h
    obtain ⟨⟨t, left⟩, ht, hend⟩ := exists_of_bind_eq_ok h
    cases hend
    exact isValue_of_readText ht

/-- A value of a plain kind is read. -/
theorem read_of_isValue (h : s.IsValue w v) :
    ∃ x, ∀ rest, s.read w (v ++ rest) = .ok (x, rest) := by
  cases s with
  | amount =>
    obtain ⟨rfl, hlength⟩ := h
    refine ⟨Binary64.mk (UInt64.ofNat (ofLittleEndian v)), fun rest => ?_⟩
    simp only [read, expectWire, if_true]
    rw [takeBytes_eq_ok_iff.2 ⟨hlength, rfl⟩]
    rfl
  | count =>
    obtain ⟨rfl, n, hn⟩ := h
    refine ⟨UInt32.ofNat n, fun rest => ?_⟩
    simp only [read, expectWire, if_true, hn.read]
    rfl
  | moment =>
    obtain ⟨rfl, n, hn⟩ := h
    refine ⟨Int64.ofNat n, fun rest => ?_⟩
    simp only [read, expectWire, if_true, hn.read]
    rfl
  | choice choices =>
    obtain ⟨rfl, n, hn⟩ := h
    refine ⟨Int32.ofNat n, fun rest => ?_⟩
    simp only [read, expectWire, if_true, hn.read]
    rfl
  | text =>
    obtain ⟨rfl, t, ht⟩ := h
    refine ⟨t, fun rest => ?_⟩
    simp only [read, readText_of_isBody ht]
    rfl
  | optionalText =>
    obtain ⟨rfl, t, ht⟩ := h
    refine ⟨some t, fun rest => ?_⟩
    simp only [read, readText_of_isBody ht]
    rfl

end Scalar

/-! ## Messages -/

namespace Layout

/-- **A field is merged into a message exactly if its value is one of the grammar.** -/
theorem takes_mergeField (l : Layout) (owner : String) (depth : Nat) :
    Takes (l.IsValue depth) (l.mergeField owner depth) := by
  induction l generalizing owner depth with
  | done =>
    constructor
    · intro number w c bytes c' rest h
      obtain ⟨left, hleft, h⟩ := exists_of_bind_eq_ok h
      cases h
      exact skipField_eq_ok_iff.1 (eq_ok_of_bare hleft)
    · intro number w v hv c
      refine ⟨c, fun rest => ?_⟩
      rw [mergeField, skipField_eq_ok_iff.2 ⟨v, rfl, hv⟩]
      rfl
  | scalar slot kind rest ih =>
    constructor
    · rintro number w ⟨x, more⟩ bytes c' left h
      rw [mergeField] at h
      simp only [IsValue]
      split at h
      · rename_i heq
        obtain ⟨⟨x', left'⟩, hread, h⟩ := exists_of_bind_eq_ok h
        cases h
        simp only [if_pos heq]
        exact Scalar.isValue_of_read (eq_ok_of_bare (eq_ok_of_inField hread))
      · rename_i hne
        obtain ⟨⟨more', left'⟩, hmore, h⟩ := exists_of_bind_eq_ok h
        cases h
        simp only [if_neg hne]
        exact (ih owner depth).sound hmore
    · rintro number w v hv ⟨x, more⟩
      simp only [IsValue] at hv
      split at hv
      · rename_i heq
        obtain ⟨x', hx'⟩ := Scalar.read_of_isValue hv
        refine ⟨(x', more), fun left => ?_⟩
        rw [mergeField, if_pos heq, hx']
        rfl
      · rename_i hne
        obtain ⟨more', hmore'⟩ := (ih owner depth).complete hv more
        exact ⟨(x, more'), fun left => mergeField_scalar_of_ne hne (hmore' left)⟩
  | message slot name inner rest ihi ih =>
    constructor
    · rintro number w ⟨m, more⟩ bytes c' left h
      rw [mergeField] at h
      simp only [IsValue]
      split at h
      · rename_i heq
        obtain ⟨⟨i, left'⟩, hread, h⟩ := exists_of_bind_eq_ok h
        cases h
        simp only [if_pos heq]
        exact Takes.exists_of_readNested (ihi name) (eq_ok_of_inField hread)
      · rename_i hne
        obtain ⟨⟨more', left'⟩, hmore, h⟩ := exists_of_bind_eq_ok h
        cases h
        simp only [if_neg hne]
        exact (ih owner depth).sound hmore
    · rintro number w v hv ⟨m, more⟩
      simp only [IsValue] at hv
      split at hv
      · rename_i heq
        obtain ⟨i, hi⟩ := Takes.readNested_of_isNested (ihi name) hv (m.getD inner.default)
        refine ⟨(some i, more), fun left => ?_⟩
        rw [mergeField, if_pos heq, hi]
        rfl
      · rename_i hne
        obtain ⟨more', hmore'⟩ := (ih owner depth).complete hv more
        exact ⟨(m, more'), fun left => mergeField_message_of_ne hne (hmore' left)⟩
  | repeated slot name inner rest ihi ih =>
    constructor
    · rintro number w ⟨ms, more⟩ bytes c' left h
      rw [mergeField] at h
      simp only [IsValue]
      split at h
      · rename_i heq
        obtain ⟨⟨i, left'⟩, hread, h⟩ := exists_of_bind_eq_ok h
        cases h
        simp only [if_pos heq]
        exact Takes.exists_of_readNested (ihi name) (eq_ok_of_inField hread)
      · rename_i hne
        obtain ⟨⟨more', left'⟩, hmore, h⟩ := exists_of_bind_eq_ok h
        cases h
        simp only [if_neg hne]
        exact (ih owner depth).sound hmore
    · rintro number w v hv ⟨ms, more⟩
      simp only [IsValue] at hv
      split at hv
      · rename_i heq
        obtain ⟨i, hi⟩ := Takes.readNested_of_isNested (ihi name) hv inner.default
        refine ⟨(ms ++ [i], more), fun left => ?_⟩
        rw [mergeField, if_pos heq, hi]
        rfl
      · rename_i hne
        obtain ⟨more', hmore'⟩ := (ih owner depth).complete hv more
        exact ⟨(ms, more'), fun left => mergeField_repeated_of_ne hne (hmore' left)⟩

variable {l : Layout} {owner : String} {bytes : Bytes} {c : l.Content}

/-- Whether bytes are a frame of a layout. -/
def IsFrame (l : Layout) (bytes : Bytes) : Prop := AreFields (l.IsValue depthLimit) bytes

/-- The message of a frame is what its fields make of an empty one. -/
theorem decode_eq_ok_iff_merges :
    l.decode owner bytes = .ok c ↔ Merges (l.mergeField owner depthLimit) l.default bytes c := by
  constructor
  · intro h
    obtain ⟨⟨c', rest⟩, hread, h⟩ := exists_of_bind_eq_ok h
    cases h
    obtain ⟨hend, v, rfl, -, hmerges⟩ :=
      (l.takes_mergeField owner depthLimit).exists_of_readFieldsWithin (Nat.le_refl _) hread
    rw [List.eq_nil_of_length_eq_zero (Nat.le_zero.1 hend), List.append_nil]
    exact hmerges
  · intro h
    have hread := h.readFieldsWithin_eq [] (Nat.le_refl _)
    rw [List.append_nil, List.length_nil] at hread
    rw [decode]
    show (readFieldsWithin _ 0 _ _ _).bind _ = _
    rw [hread]
    rfl

/-- **Exactly the frames of a layout are read.** -/
theorem decode_eq_ok_iff : (∃ c, l.decode owner bytes = .ok c) ↔ l.IsFrame bytes := by
  have htakes := l.takes_mergeField owner depthLimit
  constructor
  · rintro ⟨c, h⟩
    obtain ⟨⟨c', rest⟩, hread, -⟩ := exists_of_bind_eq_ok h
    obtain ⟨hend, v, rfl, hfields, -⟩ := htakes.exists_of_readFieldsWithin (Nat.le_refl _) hread
    rw [List.eq_nil_of_length_eq_zero (Nat.le_zero.1 hend), List.append_nil]
    exact hfields
  · intro h
    obtain ⟨c, hc⟩ := htakes.exists_merges h l.default
    exact ⟨c, decode_eq_ok_iff_merges.2 hc⟩

end Layout

end PushFeed.Wire
