import PushFeed.Wire.Reading
import PushFeed.Wire.Writing
import PushFeed.Wire.Conformance
import PushFeed.Proofs.Wire.Fields
import PushFeed.Proofs.Wire.Structured
/-!
# What a frame has room for

A frame may spell a number in more bytes than it needs, say a field twice or take a
message apart, but it never says more than it has bytes for: a conforming message that
was read from a frame is written in no more bytes than the frame has
(`Layout.length_encode_le`).

The extent of a message is the length of its frame with choices counted as the numbers of
32 bits they were read from. With each field of a frame it grows by no more than the
field's bytes. The length of the message's own frame may grow by more on the way: a choice
with its high bit set is written in ten bytes but read from five. Such a choice does not
conform.
-/

namespace PushFeed.Wire

/-- What two steps give, the first has given to the second. -/
theorem exists_of_bind_eq_ok {ε α β : Type} {x : Except ε α} {f : α → Except ε β} {b : β}
    (h : x >>= f = .ok b) : ∃ a, x = .ok a ∧ f a = .ok b := by
  cases x with
  | error e => cases h
  | ok a => exact ⟨a, rfl, h⟩

theorem exists_of_map_eq_ok {ε α β : Type} {x : Except ε α} {f : α → β} {b : β}
    (h : x.map f = .ok b) : ∃ a, x = .ok a ∧ f a = b := by
  cases x with
  | error e => cases h
  | ok a => exact ⟨a, rfl, Except.ok.inj h⟩

theorem eq_ok_of_bare {α : Type} {x : Except Cause α} {a : α} (h : bare x = .ok a) :
    x = .ok a := by
  cases x with
  | error c => cases h
  | ok b =>
    cases h
    rfl

theorem eq_ok_of_inField {α : Type} {owner : String} {slot : Slot} {x : Except Fault α} {a : α}
    (h : inField owner slot x = .ok a) : x = .ok a := by
  cases x with
  | error f => cases h
  | ok b =>
    cases h
    rfl

/-! ## Numbers -/

section Numbers

variable {count n : Nat} {bytes rest : Bytes}

theorem length_varintWithin_le_one (h : n < 128) (count : Nat) :
    (varintWithin count n).length ≤ 1 := by
  cases count with
  | zero => exact Nat.zero_le _
  | succ count =>
    rw [varintWithin, if_pos h]
    exact Nat.le_refl _

theorem length_varintWithin_le_of_le {a b : Nat} (h : a ≤ b) (count : Nat) :
    (varintWithin count a).length ≤ (varintWithin count b).length := by
  induction count generalizing a b with
  | zero => exact Nat.le_refl _
  | succ count ih =>
    have hnext := ih (Nat.div_le_div_right (c := 128) h)
    rw [varintWithin, varintWithin]
    split <;> split <;> simp only [List.length_cons, List.length_nil] <;> omega

/-- A sum needs no more bytes than its terms. -/
theorem length_varintWithin_add_le (count a b : Nat) :
    (varintWithin count (a + b)).length ≤
      (varintWithin count a).length + (varintWithin count b).length := by
  induction count generalizing a b with
  | zero => exact Nat.zero_le _
  | succ count ih =>
    -- the higher digits of a sum are those of its terms, with one carried over at most
    have hcarry {c : Nat} (hc : (a + b) / 128 ≤ a / 128 + c) :
        (varintWithin count ((a + b) / 128)).length ≤
          (varintWithin count (a / 128)).length + (varintWithin count c).length :=
      Nat.le_trans (length_varintWithin_le_of_le hc count) (ih _ _)
    have hone : (varintWithin count 1).length ≤ 1 := length_varintWithin_le_one (by decide) count
    simp only [varintWithin]
    by_cases ha : a < 128 <;> by_cases hb : b < 128
    · -- both fit into a byte, and their sum into two
      have hsum := length_varintWithin_le_one (n := (a + b) / 128) (by omega) count
      rw [if_pos ha, if_pos hb]
      split <;> simp only [List.length_cons, List.length_nil] <;> omega
    · have hnext := length_varintWithin_le_of_le (show (a + b) / 128 ≤ b / 128 + 1 by omega) count
      have hsum := ih (b / 128) 1
      rw [if_pos ha, if_neg hb, if_neg (by omega)]
      simp only [List.length_cons, List.length_nil]
      omega
    · have hsum := hcarry (c := 1) (by omega)
      rw [if_neg ha, if_pos hb, if_neg (by omega)]
      simp only [List.length_cons, List.length_nil]
      omega
    · have hsum := hcarry (c := b / 128 + 1) (by omega)
      have hnext := ih (b / 128) 1
      rw [if_neg ha, if_neg hb, if_neg (by omega)]
      simp only [List.length_cons]
      omega

theorem length_varint_le_of_le {a b : Nat} (h : a ≤ b) : (varint a).length ≤ (varint b).length :=
  length_varintWithin_le_of_le h 10

theorem length_varint_add_le (a b : Nat) :
    (varint (a + b)).length ≤ (varint a).length + (varint b).length :=
  length_varintWithin_add_le 10 a b

/-- A number is read from no fewer bytes than it needs. -/
theorem length_varintWithin_of_read (h : readVarintWithin count bytes = some (n, rest)) :
    (varintWithin count n).length + rest.length ≤ bytes.length := by
  induction count generalizing bytes n rest with
  | zero => cases h
  | succ count ih =>
    cases bytes with
    | nil => cases h
    | cons b more =>
      rw [readVarintWithin] at h
      rw [List.length_cons]
      split at h
      · rename_i hlast
        split at h
        · cases h
        · cases h
          have hone := length_varintWithin_le_one hlast (count + 1)
          omega
      · rename_i hopen
        obtain ⟨r, hr, heq⟩ := Option.map_eq_some_iff.1 h
        cases heq
        have hread := ih hr
        have hdiv : (b.toNat - 128 + 128 * r.1) / 128 = r.1 := by
          have hbyte := b.toNat_lt
          omega
        rw [varintWithin, hdiv]
        split <;> simp only [List.length_cons, List.length_nil] <;> omega

theorem length_of_readVarint (h : readVarint bytes = .ok (n, rest)) :
    (varint n).length + rest.length ≤ bytes.length := by
  rw [readVarint] at h
  cases hread : readVarint? bytes with
  | none =>
    rw [hread] at h
    cases h
  | some r =>
    rw [hread] at h
    cases h
    exact length_varintWithin_of_read hread

theorem WireType.code_of_ofCode? {code : Nat} {w : WireType} (h : WireType.ofCode? code = some w) :
    w.code = code := by
  unfold WireType.ofCode? at h
  split at h <;> cases h <;> rfl

/-- A key is read from no fewer bytes than it needs. -/
theorem length_of_readKey {number : Nat} {w : WireType}
    (h : readKey bytes = .ok (number, w, rest)) :
    (key number w).length + rest.length ≤ bytes.length := by
  obtain ⟨⟨k, left⟩, hk, hrest⟩ := exists_of_bind_eq_ok h
  have hread := length_of_readVarint hk
  simp only at hrest
  split at hrest
  · cases hrest
  · cases hcode : WireType.ofCode? (k % 8) with
    | none =>
      rw [hcode] at hrest
      cases hrest
    | some found =>
      rw [hcode] at hrest
      simp only at hrest
      split at hrest
      · cases hrest
      · cases hrest
        have hkey : k / 8 * 8 + w.code = k := by
          rw [WireType.code_of_ofCode? hcode]
          omega
        rw [key, hkey]
        exact hread

theorem takeBytes_eq_ok {body : Bytes} (h : takeBytes count bytes = .ok (body, rest)) :
    body.length = count ∧ bytes = body ++ rest := by
  rw [takeBytes] at h
  split at h
  · cases h
  · rename_i hlong
    cases h
    refine ⟨?_, (List.take_append_drop count bytes).symm⟩
    rw [List.length_take]
    omega

theorem length_of_readDelimited {body : Bytes} (h : readDelimited bytes = .ok (body, rest)) :
    (delimited body).length + rest.length ≤ bytes.length := by
  obtain ⟨⟨count, left⟩, hcount, hbody⟩ := exists_of_bind_eq_ok h
  obtain ⟨hlength, rfl⟩ := takeBytes_eq_ok hbody
  have hread := length_of_readVarint hcount
  rw [delimited, hlength, List.length_append]
  rw [List.length_append] at hread
  omega

theorem utf8_of_ofUtf8? {s : String} (h : ofUtf8? bytes = some s) : utf8 s = bytes := by
  rw [ofUtf8?, String.fromUTF8?] at h
  split at h
  · cases h
    simp [utf8, String.fromUTF8]
  · cases h

end Numbers

/-! ## Fields that are passed over -/

theorem length_of_skipGroupWithin {skip : WireType → Nat → Bytes → Except Cause Bytes}
    (hskip : ∀ w number bytes rest, skip w number bytes = .ok rest → rest.length ≤ bytes.length)
    {number fuel : Nat} {bytes rest : Bytes}
    (h : skipGroupWithin skip number fuel bytes = .ok rest) : rest.length ≤ bytes.length := by
  induction fuel generalizing bytes with
  | zero => cases h
  | succ fuel ih =>
    obtain ⟨⟨inner, w, left⟩, hkey, hrest⟩ := exists_of_bind_eq_ok h
    have hread := length_of_readKey hkey
    simp only at hrest
    split at hrest
    · split at hrest
      · cases hrest
        omega
      · cases hrest
    · obtain ⟨left', hvalue, hmore⟩ := exists_of_bind_eq_ok hrest
      have hpassed := hskip _ _ _ _ hvalue
      have hthen := ih hmore
      omega

theorem length_of_skipField {depth : Nat} {w : WireType} {number : Nat} {bytes rest : Bytes}
    (h : skipField depth w number bytes = .ok rest) : rest.length ≤ bytes.length := by
  induction depth generalizing w number bytes rest with
  | zero => cases h
  | succ depth ih =>
    cases w with
    | varint =>
      obtain ⟨r, hr, rfl⟩ := exists_of_map_eq_ok h
      have hread := length_of_readVarint hr
      omega
    | thirtyTwo | sixtyFour =>
      obtain ⟨r, hr, rfl⟩ := exists_of_map_eq_ok h
      obtain ⟨-, rfl⟩ := takeBytes_eq_ok hr
      rw [List.length_append]
      omega
    | delimited =>
      obtain ⟨r, hr, rfl⟩ := exists_of_map_eq_ok h
      have hread := length_of_readDelimited hr
      omega
    | startGroup => exact length_of_skipGroupWithin (fun _ _ _ _ => ih) h
    | endGroup => cases h

/-! ## Plain kinds -/

namespace Scalar

/-- How much room a value takes. A choice takes that of the number of 32 bits that it was
read from. -/
def extent (number : Nat) : (s : Scalar) → s.Content → Nat
  | .choice _, (n : Int32) =>
    if n = 0 then 0 else (key number .varint).length + (varint n.toUInt32.toNat).length
  | .amount, x => (Scalar.amount.encode number x).length
  | .count, n => (Scalar.count.encode number n).length
  | .moment, n => (Scalar.moment.encode number n).length
  | .text, s => (Scalar.text.encode number s).length
  | .optionalText, s => (Scalar.optionalText.encode number s).length

/-- The default takes no room. -/
theorem extent_default (number : Nat) (s : Scalar) : s.extent number s.default = 0 := by
  cases s with
  | amount => simp [extent, encode, Scalar.default, show Binary64.zero.isZero = true by decide]
  | count | moment | choice | text | optionalText => rfl

theorem eq_ok_of_expectWire {actual expected : WireType} {u : Unit}
    (h : expectWire actual expected = .ok u) : actual = expected := by
  rw [expectWire] at h
  split at h
  · assumption
  · cases h

theorem length_of_readText {w : WireType} {bytes rest : Bytes} {s : String}
    (h : read.readText w bytes = .ok (s, rest)) :
    w = .delimited ∧ (delimited (utf8 s)).length + rest.length ≤ bytes.length := by
  obtain ⟨_, hw, h⟩ := exists_of_bind_eq_ok h
  obtain ⟨⟨body, left⟩, hbody, h⟩ := exists_of_bind_eq_ok h
  have hread := length_of_readDelimited hbody
  simp only at h
  cases htext : ofUtf8? body with
  | none =>
    rw [htext] at h
    cases h
  | some t =>
    rw [htext] at h
    cases h
    rw [utf8_of_ofUtf8? htext]
    exact ⟨eq_ok_of_expectWire hw, hread⟩

/-- **A value takes no more room than the field it is read from.** -/
theorem extent_of_read {s : Scalar} {w : WireType} {bytes rest : Bytes} {x : s.Content}
    (h : s.read w bytes = .ok (x, rest)) (number : Nat) :
    s.extent number x + rest.length ≤ (key number w).length + bytes.length := by
  -- a number that keeps only the low digits of what was read needs no more bytes than that
  have hnumber {n m : Nat} (hread : readVarint bytes = .ok (n, rest)) (hle : m ≤ n) :
      (varint m).length + rest.length ≤ bytes.length :=
    Nat.le_trans (Nat.add_le_add_right (length_varint_le_of_le hle) _) (length_of_readVarint hread)
  cases s with
  | amount =>
    rw [read] at h
    obtain ⟨_, hw, hstep⟩ := exists_of_bind_eq_ok h
    obtain ⟨⟨body, left⟩, hbody, hend⟩ := exists_of_bind_eq_ok hstep
    obtain rfl := eq_ok_of_expectWire hw
    obtain ⟨hlength, rfl⟩ := takeBytes_eq_ok hbody
    cases hend
    simp only [extent, encode]
    split <;> simp only [List.length_nil, List.length_append, length_fixed64] <;> omega
  | count =>
    rw [read] at h
    obtain ⟨_, hw, hstep⟩ := exists_of_bind_eq_ok h
    obtain ⟨⟨n, left⟩, hn, hend⟩ := exists_of_bind_eq_ok hstep
    obtain rfl := eq_ok_of_expectWire hw
    cases hend
    have hle : (UInt32.ofNat n).toNat ≤ n := by
      rw [UInt32.toNat_ofNat']
      exact Nat.mod_le _ _
    have hroom := hnumber hn hle
    simp only [extent, encode]
    split <;> simp only [List.length_nil, List.length_append] <;> omega
  | moment =>
    rw [read] at h
    obtain ⟨_, hw, hstep⟩ := exists_of_bind_eq_ok h
    obtain ⟨⟨n, left⟩, hn, hend⟩ := exists_of_bind_eq_ok hstep
    obtain rfl := eq_ok_of_expectWire hw
    cases hend
    have hle : (Int64.ofNat n).toUInt64.toNat ≤ n := by
      have hbits : (Int64.ofNat n).toUInt64.toNat = n % 2 ^ 64 := rfl
      rw [hbits]
      exact Nat.mod_le _ _
    have hroom := hnumber hn hle
    simp only [extent, encode]
    split <;> simp only [List.length_nil, List.length_append] <;> omega
  | choice choices =>
    rw [read] at h
    obtain ⟨_, hw, hstep⟩ := exists_of_bind_eq_ok h
    obtain ⟨⟨n, left⟩, hn, hend⟩ := exists_of_bind_eq_ok hstep
    obtain rfl := eq_ok_of_expectWire hw
    cases hend
    have hle : (Int32.ofNat n).toUInt32.toNat ≤ n := by
      have hbits : (Int32.ofNat n).toUInt32.toNat = n % 2 ^ 32 := rfl
      rw [hbits]
      exact Nat.mod_le _ _
    have hroom := hnumber hn hle
    simp only [extent]
    split <;> omega
  | text =>
    rw [read] at h
    obtain ⟨⟨t, left⟩, ht, hend⟩ := exists_of_bind_eq_ok h
    obtain ⟨rfl, hroom⟩ := length_of_readText ht
    cases hend
    simp only [extent, encode]
    split <;> simp only [List.length_nil, List.length_append] <;> omega
  | optionalText =>
    rw [read] at h
    obtain ⟨⟨t, left⟩, ht, hend⟩ := exists_of_bind_eq_ok h
    obtain ⟨rfl, hroom⟩ := length_of_readText ht
    cases hend
    simp only [extent, encode, List.length_append]
    omega

/-- The room of a conforming value is that of its field. -/
theorem length_encode_of_bad? {s : Scalar} {x : s.Content} (h : s.bad? x = none) (number : Nat) :
    (s.encode number x).length = s.extent number x := by
  cases s with
  | choice choices =>
    simp only [bad?] at h
    split at h
    · rename_i hknown
      -- a choice that is not negative is the same number in 32 bits and in 64
      have hwide : (Int32.toInt64 x).toUInt64.toNat = (Int32.toUInt32 x).toNat := by
        have hnot : ¬Int32.toInt64 x < 0 := by
          rw [Int64.lt_iff_toInt_lt, Int32.toInt_toInt64]
          have hzero : Int64.toInt 0 = 0 := rfl
          omega
        have hvalue := toNat_toUInt64 hnot
        rw [Int32.toInt_toInt64] at hvalue
        have hbits : Int32.toInt x = (Int32.toBitVec x).toInt := rfl
        have hnat : (Int32.toUInt32 x).toNat = (Int32.toBitVec x).toNat := rfl
        have hlt := (Int32.toBitVec x).isLt
        rw [hbits, BitVec.toInt_eq_toNat_cond] at hvalue
        rw [hnat]
        split at hvalue <;> omega
      simp only [encode, extent, hwide]
      split <;> simp only [List.length_nil, List.length_append]
    · cases h
  | amount | count | moment | text | optionalText => rfl

end Scalar

/-! ## Messages -/

/-- How much room a length and so many bytes take. -/
def delimitedExtent (n : Nat) : Nat := (varint n).length + n

theorem length_delimited (body : Bytes) :
    (delimited body).length = delimitedExtent body.length := by
  rw [delimited, List.length_append, delimitedExtent]

theorem delimitedExtent_le_of_le {a b : Nat} (h : a ≤ b) : delimitedExtent a ≤ delimitedExtent b :=
  Nat.add_le_add (length_varint_le_of_le h) h

theorem delimitedExtent_add_le (a b : Nat) :
    delimitedExtent (a + b) ≤ delimitedExtent a + delimitedExtent b := by
  have hlength := length_varint_add_le a b
  simp only [delimitedExtent]
  omega

/-- How much room the items of a list take together. -/
def totalExtent {α : Type} (extent : α → Nat) : List α → Nat
  | [] => 0
  | a :: as => extent a + totalExtent extent as

theorem totalExtent_concat {α : Type} (extent : α → Nat) (as : List α) (a : α) :
    totalExtent extent (as ++ [a]) = totalExtent extent as + extent a := by
  induction as with
  | nil => exact Nat.add_comm _ _
  | cons b as ih => rw [List.cons_append, totalExtent, totalExtent, ih, Nat.add_assoc]

theorem length_flatMap_eq {α β : Type} {f : α → List β} {extent : α → Nat} {as : List α}
    (h : ∀ a ∈ as, (f a).length = extent a) : (as.flatMap f).length = totalExtent extent as := by
  induction as with
  | nil => rfl
  | cons a as ih =>
    rw [List.flatMap_cons, List.length_append, h a List.mem_cons_self,
      ih fun b hb => h b (List.mem_cons_of_mem _ hb), totalExtent]

section Reading

variable {α : Type} {extent : α → Nat} {limit fuel : Nat} {a a' : α} {bytes rest : Bytes}

/-- Whether no field makes a message take more room than the field has bytes. -/
def Roomy (extent : α → Nat) (field : Nat → WireType → α → Bytes → Except Fault (α × Bytes)) :
    Prop :=
  ∀ number w a bytes a' rest, field number w a bytes = .ok (a', rest) →
    extent a' + rest.length ≤ extent a + (key number w).length + bytes.length

/-- Fields make a message take no more room than they have bytes. -/
theorem Roomy.readFieldsWithin {field : Nat → WireType → α → Bytes → Except Fault (α × Bytes)}
    (hfield : Roomy extent field)
    (h : readFieldsWithin field limit fuel a bytes = .ok (a', rest)) :
    extent a' + rest.length ≤ extent a + bytes.length := by
  induction fuel generalizing a bytes with
  | zero =>
    cases h
    exact Nat.le_refl _
  | succ fuel ih =>
    rw [Wire.readFieldsWithin] at h
    split at h
    · cases h
      exact Nat.le_refl _
    · obtain ⟨⟨number, w, left⟩, hkey, h⟩ := exists_of_bind_eq_ok h
      obtain ⟨⟨a₁, left'⟩, hvalue, hmore⟩ := exists_of_bind_eq_ok h
      have hread := length_of_readKey (eq_ok_of_bare hkey)
      have hgrown := hfield _ _ _ _ _ _ hvalue
      have hthen := ih hmore
      omega

/-- A nested message grows by the bytes its length counts. -/
theorem Roomy.readNested {field : Nat → Nat → WireType → α → Bytes → Except Fault (α × Bytes)}
    (hfield : ∀ depth, Roomy extent (field depth)) {depth : Nat} {w : WireType}
    (h : readNested field depth w a bytes = .ok (a', rest)) :
    w = .delimited ∧ ∃ n, extent a' ≤ extent a + n ∧
      delimitedExtent n + rest.length ≤ bytes.length := by
  obtain ⟨_, hw, h⟩ := exists_of_bind_eq_ok h
  refine ⟨Scalar.eq_ok_of_expectWire (eq_ok_of_bare hw), ?_⟩
  cases depth with
  | zero => cases h
  | succ depth =>
    obtain ⟨⟨n, left⟩, hn, h⟩ := exists_of_bind_eq_ok h
    have hread := length_of_readVarint (eq_ok_of_bare hn)
    simp only at h
    split at h
    · cases h
    · rename_i hlong
      obtain ⟨⟨a₁, left'⟩, hfields, h⟩ := exists_of_bind_eq_ok h
      have hgrown := (hfield depth).readFieldsWithin hfields
      simp only at h
      split at h
      · rename_i hend
        cases h
        refine ⟨n, ?_, ?_⟩
        · omega
        · rw [delimitedExtent]
          omega
      · cases h

end Reading

namespace Layout

/-- How much room a message takes. -/
def extent : (l : Layout) → l.Content → Nat
  | .done, _ => 0
  | .scalar slot kind rest, (x, more) => kind.extent slot.number x + rest.extent more
  | .message slot _ inner rest, (m, more) =>
    (match m with
      | none => 0
      | some m => (key slot.number .delimited).length + delimitedExtent (inner.extent m)) +
      rest.extent more
  | .repeated slot _ inner rest, (ms, more) =>
    totalExtent
        (fun m => (key slot.number .delimited).length + delimitedExtent (inner.extent m)) ms +
      rest.extent more

/-- The message of an empty frame takes no room. -/
theorem extent_default (l : Layout) : l.extent l.default = 0 := by
  induction l with
  | done => rfl
  | scalar slot kind rest ih => rw [default, extent, Scalar.extent_default, ih]
  | message slot name inner rest _ ih => rw [default, extent, ih]
  | repeated slot name inner rest _ ih =>
    rw [default, extent, ih]
    rfl

/-- **A field makes a message take no more room than it has bytes.** -/
theorem roomy_mergeField (l : Layout) (owner : String) (depth : Nat) :
    Roomy l.extent (l.mergeField owner depth) := by
  induction l generalizing owner depth with
  | done =>
    intro number w c bytes c' rest h
    obtain ⟨left, hleft, h⟩ := exists_of_bind_eq_ok h
    cases h
    have hskip := length_of_skipField (eq_ok_of_bare hleft)
    omega
  | scalar slot kind rest ih =>
    rintro number w ⟨x, more⟩ bytes c' left h
    rw [mergeField] at h
    split at h
    · rename_i heq
      obtain ⟨⟨x', left'⟩, hread, h⟩ := exists_of_bind_eq_ok h
      cases h
      have hroom := Scalar.extent_of_read (eq_ok_of_bare (eq_ok_of_inField hread)) number
      rw [extent, extent, ← heq]
      omega
    · obtain ⟨⟨more', left'⟩, hmore, h⟩ := exists_of_bind_eq_ok h
      cases h
      have hroom := ih owner depth _ _ _ _ _ _ hmore
      rw [extent, extent]
      omega
  | message slot name inner rest ihi ih =>
    rintro number w ⟨m, more⟩ bytes c' left h
    rw [mergeField] at h
    split at h
    · rename_i heq
      obtain ⟨⟨i, left'⟩, hread, h⟩ := exists_of_bind_eq_ok h
      cases h
      obtain ⟨rfl, n, hgrown, hroom⟩ := Roomy.readNested (ihi name) (eq_ok_of_inField hread)
      have hgrows := delimitedExtent_le_of_le hgrown
      cases m with
      | none =>
        rw [Option.getD_none, extent_default, Nat.zero_add] at hgrows
        simp only [extent, heq]
        omega
      | some j =>
        -- what is there already keeps its own length, so no key and length come twice
        have hsum := delimitedExtent_add_le (inner.extent j) n
        rw [Option.getD_some] at hgrows
        simp only [extent, heq]
        omega
    · obtain ⟨⟨more', left'⟩, hmore, h⟩ := exists_of_bind_eq_ok h
      cases h
      have hroom := ih owner depth _ _ _ _ _ _ hmore
      simp only [extent]
      omega
  | repeated slot name inner rest ihi ih =>
    rintro number w ⟨ms, more⟩ bytes c' left h
    rw [mergeField] at h
    split at h
    · rename_i heq
      obtain ⟨⟨i, left'⟩, hread, h⟩ := exists_of_bind_eq_ok h
      cases h
      obtain ⟨rfl, n, hgrown, hroom⟩ := Roomy.readNested (ihi name) (eq_ok_of_inField hread)
      have hgrows := delimitedExtent_le_of_le hgrown
      rw [extent_default, Nat.zero_add] at hgrows
      simp only [extent, heq, totalExtent_concat]
      omega
    · obtain ⟨⟨more', left'⟩, hmore, h⟩ := exists_of_bind_eq_ok h
      cases h
      have hroom := ih owner depth _ _ _ _ _ _ hmore
      simp only [extent]
      omega

/-- The room of a conforming message is that of its frame. -/
theorem length_encode_of_violation? {l : Layout} {c : l.Content} (h : l.violation? c = none) :
    (l.encode c).length = l.extent c := by
  induction l with
  | done => rfl
  | scalar slot kind rest ih =>
    obtain ⟨x, more⟩ := c
    obtain ⟨hx, hmore⟩ := violation?_scalar_iff.1 h
    rw [encode, extent, List.length_append, Scalar.length_encode_of_bad? hx, ih hmore]
  | message slot name inner rest ihi ih =>
    obtain ⟨m, more⟩ := c
    obtain ⟨hm, hmore⟩ := violation?_message_iff.1 h
    cases m with
    | none => simp only [encode, extent, List.nil_append, ih hmore, Nat.zero_add]
    | some i =>
      simp only [encode, extent, List.length_append, length_delimited, ihi (hm i rfl), ih hmore]
  | repeated slot name inner rest ihi ih =>
    obtain ⟨ms, more⟩ := c
    obtain ⟨hms, hmore⟩ := violation?_repeated_iff.1 h
    have hitems := length_flatMap_eq
      (f := fun i => key slot.number .delimited ++ delimited (inner.encode i)) fun i hi => by
        rw [List.length_append, length_delimited, ihi (hms i hi)]
    rw [encode, extent, List.length_append, hitems, ih hmore]

/-- **A conforming message is written in no more bytes than it was read from.** -/
theorem length_encode_le {l : Layout} {owner : String} {bytes : Bytes} {c : l.Content}
    (h : l.decode owner bytes = .ok c) (hc : l.violation? c = none) :
    (l.encode c).length ≤ bytes.length := by
  obtain ⟨⟨c', rest⟩, hread, h⟩ := exists_of_bind_eq_ok h
  cases h
  have hroom := (roomy_mergeField l owner depthLimit).readFieldsWithin hread
  rw [extent_default, Nat.zero_add] at hroom
  rw [length_encode_of_violation? hc]
  omega

end Layout

end PushFeed.Wire
