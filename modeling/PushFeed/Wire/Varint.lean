import PushFeed.Number.Power
/-!
# Variable-length numbers

A number of 64 bits as its digits to the base 128, the lowest first, one to a
byte; every byte but the last has its high bit set. Reading takes at most ten
bytes and refuses a tenth byte that would pass 64 bits. It takes longer spellings
of a number too, writing makes the shortest.
-/

namespace PushFeed.Wire

/-- A string of bytes. -/
abbrev Bytes := List UInt8

/-- A number in at most so many bytes. -/
def varintWithin : Nat → Nat → Bytes
  | 0, _ => []
  | count + 1, n =>
    if n < 128 then [UInt8.ofNat n]
    else UInt8.ofNat (n % 128 + 128) :: varintWithin count (n / 128)

/-- A number below `2 ^ 64`, in the fewest bytes. -/
def varint (n : Nat) : Bytes := varintWithin 10 n

/-- Reads a number in at most so many bytes, of which the last may only be 0 or 1. -/
def readVarintWithin : Nat → Bytes → Option (Nat × Bytes)
  | 0, _ => none
  | _ + 1, [] => none
  | count + 1, b :: rest =>
    if b.toNat < 128 then
      if count = 0 ∧ 2 ≤ b.toNat then none else some (b.toNat, rest)
    else (readVarintWithin count rest).map fun r => (b.toNat - 128 + 128 * r.1, r.2)

/-- Reads a number of 64 bits; gives it and the bytes after it. -/
def readVarint? (bytes : Bytes) : Option (Nat × Bytes) := readVarintWithin 10 bytes

/-- Reading gives back what was written, whatever follows it. -/
theorem readVarintWithin_append (count n : Nat) (rest : Bytes)
    (h : n < 2 * Nat.pow 128 count) :
    readVarintWithin (count + 1) (varintWithin (count + 1) n ++ rest) = some (n, rest) := by
  induction count generalizing n with
  | zero =>
    have hn : n < 2 := h
    have hm : n % 256 = n := by omega
    simp [varintWithin, readVarintWithin, show n < 128 by omega, hm]
    omega
  | succ count ih =>
    by_cases hn : n < 128
    · have hm : n % 256 = n := by omega
      simp [varintWithin, readVarintWithin, hn, hm]
    · have hq : n / 128 < 2 * Nat.pow 128 count := by
        have hp : Nat.pow 128 (count + 1) = Nat.pow 128 count * 128 := rfl
        omega
      have hb : (UInt8.ofNat (n % 128 + 128)).toNat = n % 128 + 128 := by
        simp; omega
      rw [varintWithin, if_neg hn, List.cons_append, readVarintWithin, hb,
        if_neg (by omega), ih _ hq]
      simp
      omega

/-- A number of 64 bits reads back as it was written, whatever follows it. -/
theorem readVarint?_append {n : Nat} (h : n < twoTo 64) (rest : Bytes) :
    readVarint? (varint n ++ rest) = some (n, rest) :=
  readVarintWithin_append 9 n rest h

end PushFeed.Wire
