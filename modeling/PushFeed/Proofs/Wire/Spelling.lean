import PushFeed.Proofs.Wire.Cut
import PushFeed.Proofs.Wire.Extent
/-!
# Numbers in any spelling

A number may come in more bytes than it needs. `IsNumber` says which bytes are a number,
`IsKey` and `IsBody` which are a key and bytes behind their length, and none of them speaks
of reading. The readers take such bytes off the front, whatever follows, and nothing else
(`readVarint_eq_ok_iff`, `readKey_eq_ok_iff`, `readDelimited_eq_ok_iff`).

A number that is cut off has bytes that all say that another one follows, fewer than ten of
them (`IsOpen`), and every such bytes are the beginning of a number.
-/

namespace PushFeed.Wire

/-! ## Numbers -/

/-- Whether bytes are the digits of a number to the base 128, the lowest first; every byte
but the last has its high bit set. -/
inductive Spells : Bytes → Nat → Prop
  /-- The last byte. -/
  | last {b : UInt8} (h : b.toNat < 128) : Spells [b] b.toNat
  /-- A byte that another one follows. -/
  | more {b : UInt8} {v : Bytes} {n : Nat} (h : 128 ≤ b.toNat) (hv : Spells v n) :
      Spells (b :: v) (b.toNat - 128 + 128 * n)

/-- Whether bytes are a number of 64 bits, in any spelling of up to ten bytes. -/
structure IsNumber (v : Bytes) (n : Nat) : Prop where
  /-- The bytes are the digits. -/
  spells : Spells v n
  /-- There are not too many of them. -/
  short : v.length ≤ 10
  /-- The number has 64 bits. -/
  small : n < twoTo 64

/-- Whether bytes are the beginning of a number that goes on. -/
def IsOpen (part : Bytes) : Prop := AllOpen part ∧ part.length < 10

variable {bytes part more rest v body : Bytes} {n number : Nat} {w : WireType}

theorem Spells.ne_nil (h : Spells v n) : v ≠ [] := by
  cases h <;> simp

/-- A reader of so many bytes takes the digits of one number. -/
theorem readVarintWithin_eq_some_iff {count : Nat} :
    readVarintWithin (count + 1) bytes = some (n, rest) ↔
      ∃ v, bytes = v ++ rest ∧ Spells v n ∧ v.length ≤ count + 1 ∧ n < 2 * Nat.pow 128 count := by
  constructor
  · intro h
    induction count generalizing bytes n with
    | zero =>
      cases bytes with
      | nil => cases h
      | cons b more =>
        rw [readVarintWithin] at h
        split at h
        · rename_i hlast
          split at h
          · cases h
          · cases h
            have hone : Nat.pow 128 0 = 1 := rfl
            exact ⟨[b], rfl, .last hlast, Nat.le_refl _, by omega⟩
        · cases h
    | succ count ih =>
      cases bytes with
      | nil => cases h
      | cons b more =>
        have hpow : Nat.pow 128 (count + 1) = Nat.pow 128 count * 128 := rfl
        rw [readVarintWithin] at h
        split at h
        · rename_i hlast
          rw [if_neg (by omega)] at h
          cases h
          have hpos : 0 < Nat.pow 128 count := Nat.pow_pos (by decide)
          exact ⟨[b], rfl, .last hlast, by simp, by omega⟩
        · rename_i hopen
          obtain ⟨⟨n', rest'⟩, hread, heq⟩ := Option.map_eq_some_iff.1 h
          cases heq
          obtain ⟨v, rfl, hv, hshort, hsmall⟩ := ih hread
          have hbyte := b.toNat_lt
          refine ⟨b :: v, rfl, .more (by omega) hv, ?_, by omega⟩
          rw [List.length_cons]
          omega
  · rintro ⟨v, rfl, hv, hshort, hsmall⟩
    induction hv generalizing count with
    | @last b hlast =>
      rw [List.singleton_append, readVarintWithin, if_pos hlast, if_neg]
      rintro ⟨rfl, htwo⟩
      have hone : Nat.pow 128 0 = 1 := rfl
      omega
    | @more b v n hopen hv ih =>
      rw [List.length_cons] at hshort
      cases count with
      | zero => exact absurd (List.length_pos_iff.2 hv.ne_nil) (by omega)
      | succ count =>
        have hpow : Nat.pow 128 (count + 1) = Nat.pow 128 count * 128 := rfl
        rw [List.cons_append, readVarintWithin, if_neg (by omega), ih (by omega) (by omega)]
        rfl

/-- **A number is read from its bytes, in any spelling, and from nothing else.** -/
theorem readVarint_eq_ok_iff :
    readVarint bytes = .ok (n, rest) ↔ ∃ v, bytes = v ++ rest ∧ IsNumber v n := by
  have hread : readVarint bytes = .ok (n, rest) ↔ readVarintWithin 10 bytes = some (n, rest) := by
    rw [readVarint, readVarint?]
    cases readVarintWithin 10 bytes <;> simp
  have hsize : 2 * Nat.pow 128 9 = twoTo 64 := rfl
  rw [hread, readVarintWithin_eq_some_iff, hsize]
  constructor
  · rintro ⟨v, hbytes, hv, hshort, hsmall⟩
    exact ⟨v, hbytes, hv, hshort, hsmall⟩
  · rintro ⟨v, hbytes, hv, hshort, hsmall⟩
    exact ⟨v, hbytes, hv, hshort, hsmall⟩

theorem IsNumber.read (h : IsNumber v n) (rest : Bytes) : readVarint (v ++ rest) = .ok (n, rest) :=
  readVarint_eq_ok_iff.2 ⟨v, rfl, h⟩

/-! ## Cut numbers -/

theorem allOpen_cons_iff {b : UInt8} : AllOpen (b :: v) ↔ 128 ≤ b.toNat ∧ AllOpen v :=
  List.forall_mem_cons

/-- What stands before the last byte of a number says that another byte follows. -/
theorem Spells.allOpen_of_append (h : Spells (part ++ more) n) (hmore : more ≠ []) :
    AllOpen part := by
  induction part generalizing n with
  | nil => exact allOpen_nil
  | cons b part ih =>
    generalize hv : part ++ more = v at ih h
    rw [List.cons_append, hv] at h
    cases h with
    | last hlast => exact absurd (List.append_eq_nil_iff.1 hv).2 hmore
    | more hopen hv => exact allOpen_cons_iff.2 ⟨hopen, ih hv⟩

theorem IsNumber.isOpen_of_append (h : IsNumber (part ++ more) n) (hmore : more ≠ []) :
    IsOpen part := by
  have hshort := h.short
  have hpos := List.length_pos_iff.2 hmore
  rw [List.length_append] at hshort
  exact ⟨h.spells.allOpen_of_append hmore, by omega⟩

/-- Whatever bytes that go on stand before a last one, there is a number that they are. -/
theorem AllOpen.exists_spells (h : AllOpen part) {b : UInt8} (hb : b.toNat < 128) :
    ∃ n, Spells (part ++ [b]) n ∧ Nat.pow 128 part.length * b.toNat ≤ n ∧
      n < Nat.pow 128 part.length * (b.toNat + 1) := by
  induction part with
  | nil =>
    have hone : Nat.pow 128 0 = 1 := rfl
    exact ⟨b.toNat, .last hb, by rw [List.length_nil, hone]; omega,
      by rw [List.length_nil, hone]; omega⟩
  | cons a part ih =>
    obtain ⟨ha, hpart⟩ := allOpen_cons_iff.1 h
    obtain ⟨n, hn, hlow, hhigh⟩ := ih hpart
    have hbyte := a.toNat_lt
    have hpow (m : Nat) :
        Nat.pow 128 (part.length + 1) * m = 128 * (Nat.pow 128 part.length * m) := by
      rw [show Nat.pow 128 (part.length + 1) = Nat.pow 128 part.length * 128 from rfl,
        Nat.mul_comm _ 128, Nat.mul_assoc]
    refine ⟨_, .more ha hn, ?_, ?_⟩
    · rw [List.length_cons, hpow]
      omega
    · rw [List.length_cons, hpow]
      omega

/-- The beginning of a number can be completed by one byte, zero or one. -/
theorem IsOpen.exists_isNumber (h : IsOpen part) {b : UInt8} (hb : b.toNat < 2) :
    ∃ n, IsNumber (part ++ [b]) n ∧ Nat.pow 128 part.length * b.toNat ≤ n := by
  obtain ⟨n, hn, hlow, hhigh⟩ := h.1.exists_spells (b := b) (by omega)
  have hshort := h.2
  have hle : Nat.pow 128 part.length ≤ Nat.pow 128 9 :=
    Nat.pow_le_pow_right (by decide) (by omega)
  have hprod : Nat.pow 128 part.length * (b.toNat + 1) ≤ Nat.pow 128 9 * 2 :=
    Nat.mul_le_mul hle (by omega)
  have hsize : Nat.pow 128 9 * 2 = twoTo 64 := rfl
  refine ⟨n, ⟨hn, ?_, by omega⟩, hlow⟩
  rw [List.length_append, List.length_singleton]
  omega

/-! ## Keys -/

/-- Whether bytes are the key of a field. -/
def IsKey (k : Bytes) (number : Nat) (w : WireType) : Prop :=
  IsFieldNumber number ∧ IsNumber k (number * 8 + w.code)

theorem IsKey.ne_nil {k : Bytes} (h : IsKey k number w) : k ≠ [] := h.2.spells.ne_nil

/-- **A key is read from its bytes and from nothing else.** -/
theorem readKey_eq_ok_iff :
    readKey bytes = .ok (number, w, rest) ↔ ∃ k, bytes = k ++ rest ∧ IsKey k number w := by
  constructor
  · intro h
    obtain ⟨⟨n, left⟩, hn, hrest⟩ := exists_of_bind_eq_ok h
    obtain ⟨k, rfl, hk⟩ := readVarint_eq_ok_iff.1 hn
    simp only at hrest
    split at hrest
    · cases hrest
    · rename_i hsmall
      cases hcode : WireType.ofCode? (n % 8) with
      | none =>
        rw [hcode] at hrest
        cases hrest
      | some found =>
        rw [hcode] at hrest
        simp only at hrest
        split at hrest
        · cases hrest
        · rename_i hzero
          cases hrest
          have hn : n / 8 * 8 + w.code = n := by
            rw [WireType.code_of_ofCode? hcode]
            omega
          have hbits : twoTo 32 = 8 * twoTo 29 := rfl
          refine ⟨k, rfl, ⟨by omega, by omega⟩, ?_⟩
          rwa [hn]
  · rintro ⟨k, rfl, ⟨hpos, hlt⟩, hk⟩
    have hcode : w.code < 8 := by cases w <;> decide
    have hbits : twoTo 32 = 8 * twoTo 29 := rfl
    have hmod : (number * 8 + w.code) % 8 = w.code := by omega
    have hdiv : (number * 8 + w.code) / 8 = number := by omega
    simp only [readKey, hk.read]
    show (if twoTo 32 ≤ number * 8 + w.code then _ else _) = _
    rw [if_neg (by omega), hmod, WireType.ofCode?_code, hdiv]
    exact if_neg (by omega)

theorem IsKey.read {k : Bytes} (h : IsKey k number w) (rest : Bytes) :
    readKey (k ++ rest) = .ok (number, w, rest) :=
  readKey_eq_ok_iff.2 ⟨k, rfl, h⟩

/-- The key that is written for a field is one. -/
theorem isKey_key (h : IsFieldNumber number) (w : WireType) : IsKey (key number w) number w := by
  have hread := readKey_append h w []
  rw [readKey_eq_ok_iff] at hread
  obtain ⟨k, hk, hkey⟩ := hread
  rw [List.append_nil, List.append_nil] at hk
  rwa [hk]

/-! ## Bytes behind their length -/

/-- Whether bytes are a length and the bytes that it counts. -/
def IsBody (v body : Bytes) : Prop := ∃ len, v = len ++ body ∧ IsNumber len body.length

/-- **Bytes behind their length are read from those and from nothing else.** -/
theorem readDelimited_eq_ok_iff :
    readDelimited bytes = .ok (body, rest) ↔ ∃ v, bytes = v ++ rest ∧ IsBody v body := by
  constructor
  · intro h
    obtain ⟨⟨n, left⟩, hn, htake⟩ := exists_of_bind_eq_ok h
    obtain ⟨len, rfl, hlen⟩ := readVarint_eq_ok_iff.1 hn
    obtain ⟨hlength, hleft⟩ := takeBytes_eq_ok htake
    refine ⟨len ++ body, ?_, len, rfl, by rwa [hlength]⟩
    rw [List.append_assoc]
    exact congrArg (len ++ ·) hleft
  · rintro ⟨v, rfl, len, rfl, hlen⟩
    rw [readDelimited, List.append_assoc, hlen.read]
    exact takeBytes_append body rest

theorem IsBody.read (h : IsBody v body) (rest : Bytes) :
    readDelimited (v ++ rest) = .ok (body, rest) :=
  readDelimited_eq_ok_iff.2 ⟨v, rfl, h⟩

/-- The beginning of bytes behind their length: the length goes on, or bytes are missing. -/
theorem IsBody.cut (h : IsBody (part ++ more) body) :
    IsOpen part ∨ ∃ len before, part = len ++ before ∧ IsNumber len body.length ∧
      body = before ++ more := by
  obtain ⟨len, heq, hlen⟩ := h
  rcases List.append_eq_append_iff.1 heq with ⟨inside, hlen', hmore'⟩ | ⟨before, hpart, hbody⟩
  · rcases List.eq_nil_or_concat inside with rfl | hconcat
    · rw [List.append_nil] at hlen'
      exact .inr ⟨len, [], by rw [hlen', List.append_nil], hlen, hmore'.symm⟩
    · refine .inl ((hlen' ▸ hlen).isOpen_of_append ?_)
      obtain ⟨_, _, rfl⟩ := hconcat
      simp
  · exact .inr ⟨len, before, hpart, hlen, hbody⟩

end PushFeed.Wire
