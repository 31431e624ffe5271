import PushFeed.Wire.Reading
import PushFeed.Wire.Writing
/-!
# Fields read back

Keys, lengths and values of the plain kinds, each read back as it was written,
whatever follows it. A zero amount is not written at all, so the negative zero comes
back without its sign (`Scalar.normal`); everything else comes back as it was.
-/

namespace PushFeed.Wire

variable {rest : Bytes}

/-! ## Numbers, keys and lengths -/

theorem readVarint_append {n : Nat} (h : n < twoTo 64) (rest : Bytes) :
    readVarint (varint n ++ rest) = .ok (n, rest) := by
  rw [readVarint, readVarint?_append h]

theorem varint_ne_nil (n : Nat) : varint n ≠ [] := by
  rw [varint, varintWithin]
  split <;> simp

theorem key_ne_nil (number : Nat) (w : WireType) : key number w ≠ [] := varint_ne_nil _

/-- The numbers that fields may have. -/
def IsFieldNumber (n : Nat) : Prop := 0 < n ∧ n < twoTo 29

instance (n : Nat) : Decidable (IsFieldNumber n) := inferInstanceAs (Decidable (_ ∧ _))

theorem readKey_append {number : Nat} (hn : IsFieldNumber number) (w : WireType) (rest : Bytes) :
    readKey (key number w ++ rest) = .ok (number, w, rest) := by
  obtain ⟨h0, hlt⟩ := hn
  have hcode : w.code < 8 := by cases w <;> decide
  -- a key takes the number and three bits more, so it stays below the bound on keys
  have hsmall : number * 8 + w.code < twoTo 32 := by
    have : twoTo 32 = twoTo 29 * 8 := rfl
    omega
  have hbig : number * 8 + w.code < twoTo 64 := Nat.lt_trans hsmall (by decide)
  have hmod : (number * 8 + w.code) % 8 = w.code := by omega
  have hdiv : (number * 8 + w.code) / 8 = number := by omega
  simp only [readKey, key, readVarint_append hbig]
  show (if twoTo 32 ≤ number * 8 + w.code then _ else _) = _
  rw [if_neg (by omega), hmod, WireType.ofCode?_code, hdiv]
  exact if_neg (by omega)

theorem takeBytes_append (body rest : Bytes) :
    takeBytes body.length (body ++ rest) = .ok (body, rest) := by
  simp [takeBytes]

theorem readDelimited_append {body : Bytes} (h : body.length < twoTo 64) (rest : Bytes) :
    readDelimited (delimited body ++ rest) = .ok (body, rest) := by
  rw [readDelimited, delimited, List.append_assoc, readVarint_append h]
  exact takeBytes_append body rest

theorem ofUtf8?_utf8 (s : String) : ofUtf8? (utf8 s) = some s := by
  have hbytes : (⟨(utf8 s).toArray⟩ : ByteArray) = s.toByteArray := by
    simp [utf8]
  rw [ofUtf8?, hbytes, String.fromUTF8?, dif_pos s.isValidUTF8]
  rfl

/-! ## Eight bytes -/

theorem length_fixed64 (n : Nat) : (fixed64 n).length = 8 := by
  simp [fixed64]

/-- The lowest bytes of a number are the number, as far as they go. -/
theorem ofLittleEndian_digits (k n : Nat) :
    ofLittleEndian ((List.range k).map fun i => UInt8.ofNat (n / bytesTo i % 256)) =
      n % bytesTo k := by
  induction k generalizing n with
  | zero =>
    rw [List.range_zero, List.map_nil, ofLittleEndian, show bytesTo 0 = 1 from rfl, Nat.mod_one]
  | succ k ih =>
    -- all digits but the lowest are those of the number without it
    have hpow (i : Nat) : bytesTo (i + 1) = 256 * bytesTo i := Nat.pow_succ'
    have hdigit (i : Nat) : n / bytesTo (i + 1) = n / 256 / bytesTo i := by
      rw [hpow, Nat.div_div_eq_div_mul]
    have hlow : (UInt8.ofNat (n / bytesTo 0 % 256)).toNat = n % 256 := by simp
    rw [List.range_succ_eq_map, List.map_cons, List.map_map, ofLittleEndian, hlow]
    simp only [Function.comp_def, Nat.succ_eq_add_one, hdigit]
    rw [ih, hpow, Nat.mod_mul]

theorem ofLittleEndian_fixed64 {n : Nat} (h : n < twoTo 64) : ofLittleEndian (fixed64 n) = n := by
  rw [fixed64, ofLittleEndian_digits]
  exact Nat.mod_eq_of_lt h

/-! ## The integers in 64 bits -/

theorem int64_ofNat_toUInt64 (n : Int64) : Int64.ofNat n.toUInt64.toNat = n := by
  apply Int64.toBitVec_inj.1
  simp

theorem int32_ofNat_toUInt64 (n : Int32) : Int32.ofNat n.toInt64.toUInt64.toNat = n := by
  apply Int32.toBitVec_inj.1
  -- the lower half of the wider number is the narrow one, whatever its sign
  have hwide : (Int32.ofNat n.toInt64.toUInt64.toNat).toBitVec =
      BitVec.ofNat 32 (n.toBitVec.signExtend 64).toNat := rfl
  rw [hwide, BitVec.ofNat_toNat]
  ext i hi
  simp [BitVec.getElem_signExtend, hi, show i < 64 by omega]

end PushFeed.Wire
