import Mathlib.Algebra.Order.Field.Rat
import Mathlib.Tactic.FieldSimp
import Mathlib.Tactic.Linarith
import Mathlib.Tactic.Positivity
import Mathlib.Tactic.Ring
import PushFeed.Number.Decimal
/-!
# What decimals stand for

A decimal stands for its signed digits, divided by ten for each of its places. The order
of decimals is that of what they stand for (`le_iff`). A result that loses digits is still
within half a unit of its last place (`IsNearest`), and digits that cannot be lost are
those before the point. So a difference of two numbers that are not negative always has a
decimal (`exists_sub_eq_ok`), while a product of whole numbers has one only below 96 bits
(`mul_eq_error_of_whole`).
-/

namespace PushFeed

/-! ## Powers of ten -/

theorem tenTo_pos (n : Nat) : 0 < tenTo n := Nat.pow_pos (by decide)

theorem tenTo_add (m n : Nat) : tenTo (m + n) = tenTo m * tenTo n := Nat.pow_add 10 m n

theorem tenTo_mul_sub {m n : Nat} (h : m ≤ n) : tenTo m * tenTo (n - m) = tenTo n := by
  rw [← tenTo_add, Nat.add_sub_cancel' h]

theorem cast_tenTo_pos (n : Nat) : (0 : ℚ) < tenTo n := Nat.cast_pos.2 (tenTo_pos n)

/-- The rounded quotient is at most a number that the exact one does not pass. -/
theorem divHalfEven_le {num den q : Nat} (hden : 0 < den) (h : num ≤ q * den) :
    divHalfEven num den ≤ q := by
  obtain ⟨-, herror⟩ := divHalfEven_error num hden
  by_contra hlt
  have hnext : (q + 1) * den ≤ divHalfEven num den * den := Nat.mul_le_mul_right den (by omega)
  rw [Nat.add_mul, Nat.one_mul] at hnext
  omega

/-- One with a sign. -/
def signOf (negative : Bool) : ℚ := if negative then -1 else 1

theorem abs_signOf (negative : Bool) : |signOf negative| = 1 := by
  cases negative <;> simp [signOf]

theorem signOf_mul_natCast (n : Int) : signOf (n < 0) * n.natAbs = n := by
  rw [signOf]
  rcases lt_or_ge n 0 with hneg | hpos
  · rw [decide_eq_true hneg, if_pos rfl, neg_one_mul, Nat.cast_natAbs, abs_of_neg hneg]
    push_cast
    rw [neg_neg]
  · rw [decide_eq_false (Int.not_lt.2 hpos), if_neg Bool.false_ne_true, one_mul, Nat.cast_natAbs,
      abs_of_nonneg hpos]

namespace Decimal

variable {a b d : Decimal} {negative : Bool} {coefficient scale : Nat}

/-! ## Values and their order -/

/-- The number that a decimal stands for. -/
def value (d : Decimal) : ℚ := d.signed / tenTo d.scale

/-- Whether the number is within half a unit of its last place of another one, so that no
number with as many places is nearer. -/
def IsNearest (d : Decimal) (q : ℚ) : Prop := |d.value - q| ≤ 1 / (2 * tenTo d.scale)

theorem isNearest_value (d : Decimal) : d.IsNearest d.value := by
  have hunit := cast_tenTo_pos d.scale
  rw [IsNearest, sub_self, abs_zero]
  positivity

/-- Decimals are compared by what they stand for, whatever their places. -/
theorem le_iff : a.le b = true ↔ a.value ≤ b.value := by
  rw [le, decide_eq_true_iff, value, value,
    div_le_div_iff₀ (cast_tenTo_pos a.scale) (cast_tenTo_pos b.scale)]
  exact_mod_cast Iff.rfl

theorem natAbs_signed (d : Decimal) : d.signed.natAbs = d.coefficient := by
  unfold signed
  split <;> omega

theorem cast_signed (d : Decimal) : (d.signed : ℚ) = signOf d.negative * d.coefficient := by
  rw [signed, signOf]
  split <;> simp

theorem isZero_iff : d.isZero = true ↔ d.value = 0 := by
  have hunit := (cast_tenTo_pos d.scale).ne'
  rw [value, div_eq_zero_iff, or_iff_left hunit, Int.cast_eq_zero, ← Int.natAbs_eq_zero,
    natAbs_signed, isZero, beq_iff_eq]

theorem zero_le_value_iff : 0 ≤ d.value ↔ 0 ≤ d.signed := by
  rw [value, le_div_iff₀ (cast_tenTo_pos d.scale), zero_mul, Int.cast_nonneg_iff]

theorem value_le_zero_iff : d.value ≤ 0 ↔ d.signed ≤ 0 := by
  rw [value, div_le_iff₀ (cast_tenTo_pos d.scale), zero_mul, Int.cast_nonpos]

theorem value_negate (d : Decimal) : d.negate.value = -d.value := by
  rw [negate]
  split
  · rename_i hzero
    rw [isZero_iff.1 hzero, neg_zero]
  · have hsigned : signed { d with negative := !d.negative } = -d.signed := by
      simp only [signed]
      cases d.negative <;> simp
    rw [value, value, hsigned]
    push_cast
    rw [neg_div]

/-! ## Losing digits -/

theorem exists_ofSigned? (negative : Bool) (hcoefficient : coefficient < twoTo 96)
    (hscale : scale ≤ 28) : ∃ d, ofSigned? negative coefficient scale = some d := by
  rw [ofSigned?, dif_pos ⟨hcoefficient, hscale⟩]
  exact ⟨_, rfl⟩

theorem exists_ofParts? (negative : Bool) (hcoefficient : coefficient < twoTo 96)
    (hscale : scale ≤ 28) : ∃ d, ofParts? negative coefficient scale = some d :=
  exists_ofSigned? _ hcoefficient hscale

/-- What `ofSigned?` makes has the parts it was given. -/
theorem ofSigned?_eq_some (h : ofSigned? negative coefficient scale = some d) :
    d.coefficient = coefficient ∧ d.scale = scale ∧ d.negative = negative := by
  unfold ofSigned? at h
  split at h
  · cases h
    exact ⟨rfl, rfl, rfl⟩
  · cases h

/-- A number made of parts stands for its digits, with their sign and places. -/
theorem value_ofParts? (h : ofParts? negative coefficient scale = some d) :
    d.value = signOf negative * coefficient / tenTo scale := by
  obtain ⟨hcoefficient, hscale, hnegative⟩ := ofParts?_eq_some h
  rw [value, cast_signed, hcoefficient, hscale, hnegative]
  rcases Nat.eq_zero_or_pos coefficient with rfl | hpos
  · simp
  · rw [bne_iff_ne.2 hpos.ne', Bool.and_true]

/-- What has been fitted has lost digits from its end, rounded once. -/
theorem fit?_eq_some (h : fit? negative coefficient scale = some d) :
    ∃ drop ≤ scale,
      ofParts? negative (divHalfEven coefficient (tenTo drop)) (scale - drop) = some d := by
  obtain ⟨drop, hdrop, hparts⟩ := List.exists_of_findSome?_eq_some h
  exact ⟨drop, Nat.lt_succ_iff.1 (List.mem_range.1 hdrop), hparts⟩

/-- **Digits fit** as soon as those before the point do. -/
theorem exists_fit? (negative : Bool) (h : coefficient ≤ (twoTo 96 - 1) * tenTo scale) :
    ∃ d, fit? negative coefficient scale = some d := by
  have hwhole : divHalfEven coefficient (tenTo scale) < twoTo 96 :=
    Nat.lt_of_le_of_lt (divHalfEven_le (tenTo_pos scale) h) (by decide)
  obtain ⟨d, hd⟩ := exists_ofParts? negative hwhole (Nat.zero_le 28)
  rw [← Option.isSome_iff_exists, fit?, List.findSome?_isSome_iff]
  refine ⟨scale, List.mem_range.2 (Nat.lt_succ_self scale), ?_⟩
  rw [Nat.sub_self, hd, Option.isSome_some]

/-- Digits that fit as they are lose none. -/
theorem fit?_of_fits (negative : Bool) (hcoefficient : coefficient < twoTo 96)
    (hscale : scale ≤ 28) :
    fit? negative coefficient scale = ofParts? negative coefficient scale := by
  have hnone : tenTo 0 = 1 := rfl
  obtain ⟨d, hd⟩ := exists_ofParts? negative hcoefficient hscale
  rw [fit?, List.range_succ_eq_map, List.findSome?_cons, hnone, divHalfEven_one, Nat.sub_zero, hd]

/-- **A fitted number is the nearest** with its places. -/
theorem isNearest_fit? (h : fit? negative coefficient scale = some d) :
    d.IsNearest (signOf negative * coefficient / tenTo scale) := by
  obtain ⟨drop, hdrop, hparts⟩ := fit?_eq_some h
  obtain ⟨-, hscale, -⟩ := ofParts?_eq_some hparts
  have hkept := cast_tenTo_pos (scale - drop)
  have hlost := cast_tenTo_pos drop
  have hplaces : (tenTo scale : ℚ) = tenTo drop * tenTo (scale - drop) := by
    exact_mod_cast (tenTo_mul_sub hdrop).symm
  -- the error in units of the last place that was dropped
  have herror : |(divHalfEven coefficient (tenTo drop) : ℚ) * tenTo drop - coefficient| ≤
      tenTo drop / 2 := by
    obtain ⟨hlow, hhigh⟩ := divHalfEven_error coefficient (tenTo_pos drop)
    have hlow' : (2 : ℚ) * coefficient ≤
        2 * (divHalfEven coefficient (tenTo drop) * tenTo drop) + tenTo drop := by
      exact_mod_cast hlow
    have hhigh' : (2 : ℚ) * (divHalfEven coefficient (tenTo drop) * tenTo drop) ≤
        2 * coefficient + tenTo drop := by
      exact_mod_cast hhigh
    rw [abs_le]
    constructor <;> linarith
  have hdiff : d.value - signOf negative * coefficient / tenTo scale =
      signOf negative * (divHalfEven coefficient (tenTo drop) * tenTo drop - coefficient) /
        (tenTo drop * tenTo (scale - drop)) := by
    rw [value_ofParts? hparts, hplaces]
    field_simp
  rw [IsNearest, hdiff, abs_div, abs_mul, abs_signOf, one_mul, abs_of_pos (mul_pos hlost hkept),
    hscale, div_le_iff₀ (mul_pos hlost hkept)]
  refine herror.trans_eq ?_
  field_simp

/-! ## Sums and differences -/

/-- The sum of two numbers in units of the smaller last place. -/
theorem add_eq_div (a b : Decimal) :
    a.value + b.value =
      ((a.signed * tenTo (max a.scale b.scale - a.scale) +
        b.signed * tenTo (max a.scale b.scale - b.scale) : Int) : ℚ) /
          tenTo (max a.scale b.scale) := by
  have ha := cast_tenTo_pos a.scale
  have hb := cast_tenTo_pos b.scale
  have hplaces := cast_tenTo_pos (max a.scale b.scale)
  have hplaces₁ : (tenTo (max a.scale b.scale) : ℚ) =
      tenTo a.scale * tenTo (max a.scale b.scale - a.scale) := by
    exact_mod_cast (tenTo_mul_sub (Nat.le_max_left _ _)).symm
  have hplaces₂ : (tenTo (max a.scale b.scale) : ℚ) =
      tenTo b.scale * tenTo (max a.scale b.scale - b.scale) := by
    exact_mod_cast (tenTo_mul_sub (Nat.le_max_right _ _)).symm
  rw [eq_div_iff hplaces.ne', add_mul, value, value]
  push_cast
  congr 1
  · rw [hplaces₁]
    field_simp
  · rw [hplaces₂]
    field_simp

/-- **A sum is the nearest number** with its places. -/
theorem isNearest_add? (h : a.add? b = some d) : d.IsNearest (a.value + b.value) := by
  rw [add?] at h
  split at h
  · rename_i ha
    cases h
    rw [isZero_iff.1 ha, zero_add]
    exact isNearest_value b
  · split at h
    · rename_i hb
      cases h
      rw [isZero_iff.1 hb, add_zero]
      exact isNearest_value a
    · have hnearest := isNearest_fit? h
      rwa [signOf_mul_natCast, ← add_eq_div] at hnearest

/-- The digits of a number at more places, which make at most that many units. -/
theorem natAbs_signed_mul_le (d : Decimal) (places : Nat) :
    (d.signed * tenTo (places - d.scale)).natAbs ≤ (twoTo 96 - 1) * tenTo places := by
  have hmost := d.coefficient_lt
  rw [Int.natAbs_mul, natAbs_signed, Int.natAbs_natCast]
  exact Nat.mul_le_mul (by omega) (Nat.pow_le_pow_right (by decide) (Nat.sub_le _ _))

/-- **Numbers of different signs have a sum.** -/
theorem exists_add? (ha : 0 ≤ a.value) (hb : b.value ≤ 0) : ∃ d, a.add? b = some d := by
  rw [add?]
  split
  · exact ⟨b, rfl⟩
  · split
    · exact ⟨a, rfl⟩
    · have hfirst := natAbs_signed_mul_le a (max a.scale b.scale)
      have hsecond := natAbs_signed_mul_le b (max a.scale b.scale)
      have hpos : 0 ≤ a.signed * tenTo (max a.scale b.scale - a.scale) :=
        mul_nonneg (zero_le_value_iff.1 ha) (Int.natCast_nonneg _)
      have hneg : b.signed * tenTo (max a.scale b.scale - b.scale) ≤ 0 :=
        mul_nonpos_of_nonpos_of_nonneg (value_le_zero_iff.1 hb) (Int.natCast_nonneg _)
      -- the digits of the one are taken off those of the other
      exact exists_fit? _ (by omega)

/-- **A difference of numbers that are not negative never overflows**, whatever their
places, and is the nearest number with its places. -/
theorem exists_sub_eq_ok (ha : 0 ≤ a.value) (hb : 0 ≤ b.value) :
    ∃ d, a.sub b = .ok d ∧ d.IsNearest (a.value - b.value) := by
  have hnegate : b.negate.value ≤ 0 := by
    rw [value_negate]
    exact neg_nonpos.2 hb
  obtain ⟨d, hd⟩ := exists_add? ha hnegate
  refine ⟨d, by rw [sub, hd], ?_⟩
  rw [sub_eq_add_neg, ← value_negate]
  exact isNearest_add? hd

/-! ## Products -/

/-- A product whose digits fit is exact. -/
theorem exists_mul_eq_ok (hcoefficient : a.coefficient * b.coefficient < twoTo 96)
    (hscale : a.scale + b.scale ≤ 28) : ∃ d, a.mul b = .ok d ∧ d.value = a.value * b.value := by
  rw [mul]
  split
  · rename_i hzero
    refine ⟨zero, rfl, ?_⟩
    have hplain : zero.value = 0 := isZero_iff.1 rfl
    rw [Bool.or_eq_true, isZero_iff, isZero_iff] at hzero
    rw [hplain, mul_eq_zero.2 hzero]
  · obtain ⟨d, hd⟩ := exists_ofParts? (a.negative != b.negative) hcoefficient hscale
    rw [fit?_of_fits _ hcoefficient hscale, hd]
    have hsign : signOf (a.negative != b.negative) = signOf a.negative * signOf b.negative := by
      cases a.negative <;> cases b.negative <;> simp [signOf]
    have hplaces : (tenTo (a.scale + b.scale) : ℚ) = tenTo a.scale * tenTo b.scale := by
      exact_mod_cast tenTo_add a.scale b.scale
    refine ⟨d, rfl, ?_⟩
    rw [value_ofParts? hd, value, value, cast_signed, cast_signed, hsign, hplaces, div_mul_div_comm]
    push_cast
    ring

/-- **A product of whole numbers overflows** where its digits do not fit: there is no place
to lose. -/
theorem mul_eq_error_of_whole (ha : a.scale = 0) (hb : b.scale = 0)
    (h : twoTo 96 ≤ a.coefficient * b.coefficient) : a.mul b = .error .multiplication := by
  have hpos : 0 < a.coefficient * b.coefficient := Nat.lt_of_lt_of_le (by decide) h
  have hzero : (a.isZero || b.isZero) = false := by
    rw [Bool.or_eq_false_iff, isZero, isZero, beq_eq_false_iff_ne, beq_eq_false_iff_ne]
    exact ⟨(Nat.pos_of_mul_pos_right hpos).ne', (Nat.pos_of_mul_pos_left hpos).ne'⟩
  have hnone (negative : Bool) : fit? negative (a.coefficient * b.coefficient) 0 = none := by
    cases hfit : fit? negative (a.coefficient * b.coefficient) 0 with
    | none => rfl
    | some d =>
      obtain ⟨drop, hdrop, hparts⟩ := fit?_eq_some hfit
      obtain ⟨hcoefficient, -, -⟩ := ofParts?_eq_some hparts
      have hnothing : tenTo 0 = 1 := rfl
      rw [Nat.le_zero.1 hdrop, hnothing, divHalfEven_one] at hcoefficient
      have := d.coefficient_lt
      omega
  rw [mul, if_neg (by rw [hzero]; exact Bool.false_ne_true), ha, hb, hnone]

end Decimal

end PushFeed
