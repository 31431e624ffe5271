import Mathlib.Algebra.Order.Ring.Pow
import Mathlib.Tactic.NormNum
import PushFeed.Proofs.Number.Conversion
/-!
# The order of the decimals of doubles

The decimal of a larger double is no smaller (`Decimal.value_le_of_orderKey_le`), although a
conversion can lose the last bits of a double on the way. Two doubles are further apart than
that: what a smaller one is worth is at most what is left of a larger one
(`Binary64.abs_value_le_of_magnitude_lt`, `Decimal.value_halved`). From there on equal
numbers lose equal digits, however many zeros stand behind them (`Decimal.worth_shorten_mul`),
and places are dropped in order (`Decimal.worth_shorten_le`).
-/

namespace PushFeed

/-! ## Doubles -/

theorem cast_twoTo (n : Nat) : (twoTo n : ℚ) = 2 ^ n := Nat.cast_pow 2 n

theorem cast_tenTo (n : Nat) : (tenTo n : ℚ) = 10 ^ n := Nat.cast_pow 10 n

namespace Binary64

variable {x y : Binary64}

theorem abs_value_eq (x : Binary64) : |x.value| = x.mantissa * (2 : ℚ) ^ x.exponent := by
  rw [abs_value, cast_twoTo, cast_twoTo]
  rcases Int.eq_nat_or_neg x.exponent with ⟨n, hn | hn⟩
  · rw [hn, Int.toNat_natCast, Int.toNat_neg_natCast, pow_zero, div_one, zpow_natCast]
  · rw [hn, neg_neg, Int.toNat_natCast, Int.toNat_neg_natCast, pow_zero, mul_one, zpow_neg,
      zpow_natCast, div_eq_mul_inv]

theorem le_exponent (x : Binary64) : -1074 ≤ x.exponent := by
  have hfull : twoTo 52 = 4503599627370496 := rfl
  simp only [exponent, hfull]
  split <;> omega

/-- A larger magnitude has a larger mantissa, or a larger exponent and a full mantissa. -/
theorem cases_of_magnitude_lt (h : x.magnitude < y.magnitude) :
    (x.exponent = y.exponent ∧ x.mantissa < y.mantissa) ∨
      (x.exponent < y.exponent ∧ twoTo 52 ≤ y.mantissa) := by
  have hfull : twoTo 52 = 4503599627370496 := rfl
  simp only [exponent, mantissa, hfull]
  split <;> split <;> omega

theorem exponent_le_of_magnitude_le (h : x.magnitude ≤ y.magnitude) : x.exponent ≤ y.exponent := by
  have hfull : twoTo 52 = 4503599627370496 := rfl
  simp only [exponent, hfull]
  split <;> split <;> omega

theorem twoTo_le_mantissa (h : 0 ≤ x.exponent) : twoTo 52 ≤ x.mantissa := by
  have hfull : twoTo 52 = 4503599627370496 := rfl
  simp only [exponent, mantissa, hfull] at h ⊢
  split at h <;> split <;> omega

/-- **Doubles are half a unit of 53 bits apart**, or further. -/
theorem abs_value_le_of_magnitude_lt (h : x.magnitude < y.magnitude) :
    |x.value| ≤ |y.value| * (1 - 1 / twoTo 54) := by
  have hsmall : (twoTo 54 : ℚ) = 18014398509481984 := rfl
  have hy : (y.mantissa : ℚ) < 9007199254740992 := Nat.cast_lt_ofNat.2 y.mantissa_lt
  have hunit : (0 : ℚ) < 2 ^ y.exponent := zpow_pos two_pos _
  -- half a unit of the last bit of the larger one
  have hhalf : |x.value| ≤ (y.mantissa - 1 / 2) * (2 : ℚ) ^ y.exponent := by
    rw [abs_value_eq]
    rcases cases_of_magnitude_lt h with ⟨hexponent, hless⟩ | ⟨hexponent, hfull⟩
    · have hnext : (x.mantissa : ℚ) + 1 ≤ y.mantissa := by exact_mod_cast hless
      rw [hexponent]
      refine mul_le_mul_of_nonneg_right ?_ hunit.le
      linarith
    · have hx : (x.mantissa : ℚ) + 1 ≤ 9007199254740992 := by exact_mod_cast x.mantissa_lt
      have hfull : (4503599627370496 : ℚ) ≤ y.mantissa := Nat.ofNat_le_cast.2 hfull
      have hbit : (2 : ℚ) ^ x.exponent ≤ 2 ^ y.exponent / 2 := by
        rw [le_div_iff₀ two_pos, ← zpow_add_one₀ two_ne_zero]
        exact zpow_le_zpow_right₀ one_le_two (by omega)
      calc x.mantissa * (2 : ℚ) ^ x.exponent
          ≤ x.mantissa * (2 ^ y.exponent / 2) :=
            mul_le_mul_of_nonneg_left hbit (Nat.cast_nonneg _)
        _ = x.mantissa / 2 * 2 ^ y.exponent := by ring
        _ ≤ (y.mantissa - 1 / 2) * 2 ^ y.exponent :=
            mul_le_mul_of_nonneg_right (by linarith) hunit.le
  refine hhalf.trans ?_
  rw [abs_value_eq y, hsmall, mul_right_comm]
  refine mul_le_mul_of_nonneg_right ?_ hunit.le
  linarith

theorem abs_value_le_of_magnitude_le (h : x.magnitude ≤ y.magnitude) : |x.value| ≤ |y.value| := by
  rcases Nat.eq_or_lt_of_le h with hsame | hless
  · rw [abs_value_eq, abs_value_eq, mantissa, mantissa, exponent, exponent, hsame]
  · refine (abs_value_le_of_magnitude_lt hless).trans (mul_le_of_le_one_right (abs_nonneg _) ?_)
    rw [sub_le_self_iff]
    exact div_nonneg zero_le_one (Nat.cast_nonneg _)

end Binary64

namespace Decimal

variable {x y : Binary64} {a b : Decimal} {p : Nat × Nat} {digits digits' scale scale' : Nat}

/-! ## Halving -/

/-- The number that a working number stands for. -/
def Working.value (w : Working) : ℚ := w.digits * 10 ^ w.tens

theorem Working.zero_le_value (w : Working) : 0 ≤ w.value :=
  mul_nonneg (Nat.cast_nonneg _) (zpow_nonneg (by norm_num) _)

/-- What a division by two leaves at least, told as the multiplication by five that it is for
a working number: it may lose the last of 93 bits. -/
def kept : ℚ := 5 * (1 - 1 / twoTo 93)

theorem kept_nonneg : 0 ≤ kept := by
  have hbits : (twoTo 93 : ℚ) = 9903520314283042199192993792 := rfl
  rw [kept, hbits]
  norm_num

theorem kept_le : kept ≤ 5 := by
  have hbits : (twoTo 93 : ℚ) = 9903520314283042199192993792 := rfl
  rw [kept, hbits]
  norm_num

theorem Working.value_tens_succ (digits : Nat) (tens : Int) :
    Working.value ⟨digits, tens + 1⟩ = digits * 10 * 10 ^ tens := by
  rw [Working.value, zpow_add_one₀ (by norm_num), mul_assoc, mul_comm (10 : ℚ)]

/-- The last bit of an odd number is dropped only where it is behind 93 others. -/
theorem value_half_of_large {tens : Int} (hodd : digits % 2 ≠ 0) (hlarge : twoTo 93 ≤ digits) :
    Working.value ⟨digits, tens⟩ * kept ≤ Working.value ⟨digits / 2, tens + 1⟩ ∧
      Working.value ⟨digits / 2, tens + 1⟩ ≤ Working.value ⟨digits, tens⟩ * 5 := by
  have hunit : (0 : ℚ) < 10 ^ tens := zpow_pos (by norm_num) tens
  have hhalf : ((digits / 2 : Nat) : ℚ) * 10 = (digits - 1) * 5 := by
    have hdigits : ((digits / 2 : Nat) : ℚ) * 2 + 1 = digits := by
      exact_mod_cast (by omega : digits / 2 * 2 + 1 = digits)
    linarith
  have hbit : 1 ≤ (digits : ℚ) * (1 / twoTo 93) := by
    rw [mul_one_div, one_le_div (cast_twoTo_pos 93)]
    exact Nat.cast_le.2 hlarge
  rw [Working.value_tens_succ, hhalf, Working.value, kept]
  constructor
  · calc (digits : ℚ) * 10 ^ tens * (5 * (1 - 1 / twoTo 93))
        = (digits - digits * (1 / twoTo 93)) * 5 * 10 ^ tens := by ring
      _ ≤ (digits - 1) * 5 * 10 ^ tens :=
        mul_le_mul_of_nonneg_right (by linarith) hunit.le
  · calc ((digits : ℚ) - 1) * 5 * 10 ^ tens
        ≤ digits * 5 * 10 ^ tens := mul_le_mul_of_nonneg_right (by linarith) hunit.le
      _ = digits * 10 ^ tens * 5 := by ring

theorem value_halve (w : Working) :
    w.value * kept ≤ (halve w).value ∧ (halve w).value ≤ w.value * 5 := by
  obtain ⟨digits, tens⟩ := w
  -- where nothing is lost, the value is five times the value before
  have hexact {v : ℚ} (hv : v = Working.value ⟨digits, tens⟩ * 5) :
      Working.value ⟨digits, tens⟩ * kept ≤ v ∧ v ≤ Working.value ⟨digits, tens⟩ * 5 := by
    refine ⟨?_, hv.le⟩
    rw [hv]
    exact mul_le_mul_of_nonneg_left kept_le (Working.zero_le_value _)
  unfold halve
  dsimp only
  split
  · rename_i heven
    have hdigits : (digits : ℚ) = (digits / 2 : Nat) * 2 := by
      exact_mod_cast (Nat.div_mul_cancel (Nat.dvd_of_mod_eq_zero heven)).symm
    refine hexact ?_
    rw [Working.value_tens_succ, Working.value, hdigits]
    ring
  · rename_i hodd
    split
    · refine hexact ?_
      rw [Working.value, Working.value, Nat.cast_mul, Nat.cast_ofNat]
      ring
    · have height : twoTo 96 = twoTo 93 * 8 := rfl
      exact value_half_of_large hodd (by omega)

theorem value_halveTimes (n : Nat) (w : Working) :
    w.value * kept ^ n ≤ (halveTimes n w).value ∧ (halveTimes n w).value ≤ w.value * 5 ^ n := by
  induction n generalizing w with
  | zero => simp [halveTimes]
  | succ n ih =>
    obtain ⟨hlow, hhigh⟩ := value_halve w
    obtain ⟨hlow', hhigh'⟩ := ih (halve w)
    rw [halveTimes, pow_succ', pow_succ', ← mul_assoc, ← mul_assoc]
    exact ⟨(mul_le_mul_of_nonneg_right hlow (pow_nonneg kept_nonneg n)).trans hlow',
      hhigh'.trans (mul_le_mul_of_nonneg_right hhigh (pow_nonneg (by norm_num) n))⟩

/-- The working number of a double with bits behind the point. -/
def halved (x : Binary64) : Working := halveTimes (-x.exponent).toNat ⟨x.mantissa, x.exponent⟩

theorem tens_halved_le (h : x.exponent < 0) : (halved x).tens ≤ 0 := by
  obtain ⟨-, hmost, -⟩ := halveTimes_spec (-x.exponent).toNat ⟨x.mantissa, x.exponent⟩
  rw [halved]
  simp only at hmost
  omega

/-- **All divisions of a double together** lose less than half a unit of 53 bits. -/
theorem value_halved (h : x.exponent < 0) :
    |x.value| * (1 - 1 / twoTo 54) ≤ (halved x).value ∧ (halved x).value ≤ |x.value| := by
  obtain ⟨n, hn⟩ : ∃ n : Nat, x.exponent = -n := ⟨(-x.exponent).toNat, by omega⟩
  have hmost : n ≤ 1074 := by
    have := x.le_exponent
    omega
  have hstart : |x.value| = Working.value ⟨x.mantissa, x.exponent⟩ * 5 ^ n := by
    have hten : (10 : ℚ) ^ n = 2 ^ n * 5 ^ n := by rw [← mul_pow]; norm_num
    rw [Binary64.abs_value_eq, Working.value, hn, zpow_neg, zpow_neg, zpow_natCast, zpow_natCast,
      hten]
    field_simp
  have hkept : 1 - 1 / twoTo 54 ≤ (1 - 1 / twoTo 93 : ℚ) ^ n := by
    have hbits : (twoTo 93 : ℚ) = 9903520314283042199192993792 := rfl
    have hhalf : (twoTo 54 : ℚ) = 18014398509481984 := rfl
    have hn' : (n : ℚ) ≤ 1074 := Nat.cast_le_ofNat.2 hmost
    have hbernoulli := one_add_mul_le_pow (a := -(1 / twoTo 93 : ℚ)) (by rw [hbits]; norm_num) n
    rw [← sub_eq_add_neg] at hbernoulli
    refine le_trans ?_ hbernoulli
    rw [hbits, hhalf]
    linarith
  obtain ⟨hlow, hhigh⟩ := value_halveTimes n ⟨x.mantissa, x.exponent⟩
  rw [← hstart] at hhigh
  rw [kept, mul_pow, ← mul_assoc, ← hstart] at hlow
  have hsteps : (-x.exponent).toNat = n := by omega
  rw [halved, hsteps]
  exact ⟨(mul_le_mul_of_nonneg_left hkept (abs_nonneg _)).trans hlow, hhigh⟩

theorem value_halved_le (hx : x.exponent < 0) (hy : y.exponent < 0)
    (h : x.magnitude ≤ y.magnitude) : (halved x).value ≤ (halved y).value := by
  rcases Nat.eq_or_lt_of_le h with hsame | hless
  · rw [halved, halved, Binary64.mantissa, Binary64.mantissa, Binary64.exponent,
      Binary64.exponent, hsame]
  · exact ((value_halved hx).2.trans (Binary64.abs_value_le_of_magnitude_lt hless)).trans
      (value_halved hy).1

/-! ## Dropping places -/

/-- What digits with so many places are worth. -/
def worth (p : Nat × Nat) : ℚ := p.1 / tenTo p.2

theorem worth_le_iff : worth (digits, scale) ≤ worth (digits', scale') ↔
    digits * tenTo scale' ≤ digits' * tenTo scale := by
  rw [worth, worth, div_le_div_iff₀ (cast_tenTo_pos scale) (cast_tenTo_pos scale')]
  exact_mod_cast Iff.rfl

theorem worth_mul_ten (digits scale : Nat) :
    worth (digits * 10, scale + 1) = worth (digits, scale) := by
  have hten : (tenTo (scale + 1) : ℚ) = tenTo scale * 10 := by exact_mod_cast tenTo_add scale 1
  rw [worth, worth, hten, Nat.cast_mul, Nat.cast_ofNat, mul_div_mul_right _ _ (by norm_num)]

theorem worth_trimPlaces (digits scale : Nat) :
    worth (trimPlaces digits scale) = worth (digits, scale) := by
  induction scale generalizing digits with
  | zero => rfl
  | succ scale ih =>
    rw [trimPlaces]
    split
    · rename_i hzero
      rw [ih, ← worth_mul_ten, Nat.div_mul_cancel (Nat.dvd_of_mod_eq_zero hzero)]
    · rfl

theorem dropDigit_mul_ten (digits : Nat) : dropDigit (digits * 10) = digits := by
  rw [dropDigit, if_neg (by omega), Nat.mul_div_cancel digits (by decide)]

theorem dropDigit_le (h : digits ≤ digits') : dropDigit digits ≤ dropDigit digits' := by
  unfold dropDigit
  split <;> split <;> omega

theorem capScale_of_le (fuel : Nat) (h : scale ≤ 28) :
    capScale fuel digits scale = (digits, scale) := by
  cases fuel with
  | zero => rfl
  | succ fuel => rw [capScale, if_neg (by omega)]

theorem capDigits_of_lt (h : digits < twoTo 52) : capDigits digits scale = (digits, scale) := by
  cases scale with
  | zero => rfl
  | succ scale => rw [capDigits, if_neg (by omega)]

/-- The digits and places that are left of a number, which are at most 28 places where there is
fuel to drop the others. -/
def shorten (fuel digits scale : Nat) : Nat × Nat :=
  capDigits (capScale fuel digits scale).1 (capScale fuel digits scale).2

theorem worth_capDigits_mul_ten (digits scale : Nat) :
    worth (capDigits (digits * 10) (scale + 1)) = worth (capDigits digits scale) := by
  by_cases hlarge : twoTo 52 ≤ digits * 10
  · rw [capDigits, if_pos hlarge, dropDigit_mul_ten]
  · rw [capDigits_of_lt (by omega), capDigits_of_lt (by omega), worth_mul_ten]

theorem worth_capDigits_le (scale : Nat) (h : digits ≤ digits') :
    worth (capDigits digits scale) ≤ worth (capDigits digits' scale) := by
  induction scale generalizing digits digits' with
  | zero => exact worth_le_iff.2 (Nat.mul_le_mul_right _ h)
  | succ scale ih =>
    by_cases hlarge' : twoTo 52 ≤ digits'
    · by_cases hlarge : twoTo 52 ≤ digits
      · rw [capDigits, if_pos hlarge, capDigits, if_pos hlarge']
        exact ih (dropDigit_le h)
      · -- what is left of 53 bits is more than 52 bits hold
        have hleast : dropDigit (twoTo 52) = 450359962737050 := rfl
        have hmore : twoTo 52 ≤ 450359962737050 * 10 := by decide
        have hnext := ih (dropDigit_le hlarge')
        rw [hleast, capDigits_of_lt (by decide)] at hnext
        rw [capDigits_of_lt (by omega), capDigits, if_pos hlarge']
        refine le_trans ?_ hnext
        rw [← worth_mul_ten 450359962737050]
        exact worth_le_iff.2 (Nat.mul_le_mul_right _ (by omega))
    · rw [capDigits_of_lt (by omega), capDigits_of_lt (by omega)]
      exact worth_le_iff.2 (Nat.mul_le_mul_right _ h)

theorem worth_nonneg (p : Nat × Nat) : 0 ≤ worth p :=
  div_nonneg (Nat.cast_nonneg _) (Nat.cast_nonneg _)

theorem worth_of_zero (scale : Nat) : worth (0, scale) = 0 := by
  rw [worth, Nat.cast_zero, zero_div]

/-- **Places are dropped in order**, from numbers of as many places. -/
theorem worth_shorten_le_of_le (fuel scale : Nat) (h : digits ≤ digits') :
    worth (shorten fuel digits scale) ≤ worth (shorten fuel digits' scale) := by
  induction fuel generalizing digits digits' scale with
  | zero => exact worth_capDigits_le scale h
  | succ fuel ih =>
    by_cases hmany : 28 < scale
    · by_cases hgone : digits / 10 = 0
      · rw [shorten, capScale, if_pos hmany, if_pos hgone]
        exact (worth_of_zero 0).trans_le (worth_nonneg _)
      · have hgone' : digits' / 10 ≠ 0 := by omega
        have hnext := ih (scale - 1) (dropDigit_le h)
        rwa [shorten, shorten, capScale, if_pos hmany, if_neg hgone, capScale, if_pos hmany,
          if_neg hgone']
    · rw [shorten, shorten, capScale_of_le _ (by omega), capScale_of_le _ (by omega)]
      exact worth_capDigits_le scale h

theorem worth_shorten_zero (fuel scale : Nat) : worth (shorten fuel 0 scale) = 0 := by
  have hscale := (shortens_capScale fuel 0 scale).digits_le
  have hdigits :=
    (shortens_capDigits (capScale fuel 0 scale).1 (capScale fuel 0 scale).2).digits_le
  have hnone : (shorten fuel 0 scale).1 = 0 := Nat.le_zero.1 (hdigits.trans hscale)
  rw [worth, hnone, Nat.cast_zero, zero_div]

/-- A zero behind the digits of a number is dropped without a trace. -/
theorem worth_shorten_mul_ten (digits scale : Nat) :
    worth (shorten (scale + 1) (digits * 10) (scale + 1)) =
      worth (shorten scale digits scale) := by
  by_cases hmany : 28 < scale + 1
  · rcases Nat.eq_zero_or_pos digits with rfl | hpos
    · rw [Nat.zero_mul, worth_shorten_zero, worth_shorten_zero]
    · rw [shorten, capScale, if_pos hmany, if_neg (by omega), dropDigit_mul_ten,
        Nat.add_sub_cancel, ← shorten]
  · rw [shorten, shorten, capScale_of_le _ (by omega), capScale_of_le _ (by omega)]
    exact worth_capDigits_mul_ten digits scale

/-- **Equal numbers lose equal digits**, however many zeros stand behind them. -/
theorem worth_shorten_mul (digits scale zeros : Nat) :
    worth (shorten (scale + zeros) (digits * tenTo zeros) (scale + zeros)) =
      worth (shorten scale digits scale) := by
  induction zeros with
  | zero =>
    have hone : tenTo 0 = 1 := rfl
    rw [hone, Nat.mul_one, Nat.add_zero]
  | succ zeros ih =>
    have hten : tenTo (zeros + 1) = tenTo zeros * 10 := Nat.pow_succ 10 zeros
    rw [hten, ← Nat.mul_assoc, ← Nat.add_assoc, worth_shorten_mul_ten, ih]

/-- **Places are dropped in order**: a larger number has no less left. -/
theorem worth_shorten_le (h : worth (digits, scale) ≤ worth (digits', scale')) :
    worth (shorten scale digits scale) ≤ worth (shorten scale' digits' scale') := by
  rw [← worth_shorten_mul digits scale scale', ← worth_shorten_mul digits' scale' scale,
    Nat.add_comm scale' scale]
  exact worth_shorten_le_of_le _ _ (worth_le_iff.1 h)

/-! ## Decimals -/

theorem worth_of_places? {w : Working} (htens : w.tens ≤ 0) (h : places? w = some p) :
    worth p = worth (shorten (-w.tens).toNat w.digits (-w.tens).toNat) := by
  rw [places?, if_neg (by omega)] at h
  cases h
  exact worth_trimPlaces _ _

theorem worth_of_tens {w : Working} (htens : w.tens ≤ 0) :
    worth (w.digits, (-w.tens).toNat) = w.value := by
  obtain ⟨places, hplaces⟩ : ∃ places : Nat, w.tens = -places := ⟨(-w.tens).toNat, by omega⟩
  rw [worth, Working.value, hplaces, neg_neg, Int.toNat_natCast, zpow_neg, zpow_natCast,
    cast_tenTo, div_eq_mul_inv]

theorem abs_value_eq_worth (d : Decimal) : |d.value| = worth (d.coefficient, d.scale) := by
  rw [value, cast_signed, abs_div, abs_mul, abs_signOf, one_mul, Nat.abs_cast, Nat.abs_cast,
    worth]

/-- The decimal of a double with bits behind the point is what is left of its digits. -/
theorem abs_value_of_fraction (hx : x.exponent < 0) (h : ofBinary64? x = some a) :
    |a.value| = worth (shorten (-(halved x).tens).toNat (halved x).digits
      (-(halved x).tens).toNat) := by
  have hworking : working? x = some (halved x) := by
    rw [working?, if_pos hx]
    rfl
  rw [ofBinary64?, hworking, Option.bind_some] at h
  split at h
  · cases h
  · obtain ⟨p, hp, h⟩ := Option.bind_eq_some_iff.1 h
    obtain ⟨hcoefficient, hscale, -⟩ := ofSigned?_eq_some h
    rw [abs_value_eq_worth, hcoefficient, hscale, ← worth_of_places? (tens_halved_le hx) hp]

/-- The decimal of a double with all its bits before the point is worth the double. -/
theorem value_eq_of_whole (hx : 0 ≤ x.exponent) (h : ofBinary64? x = some a) :
    a.value = x.value := by
  obtain ⟨hfinite, hlt⟩ := exists_ofBinary64?_iff.1 ⟨a, h⟩
  obtain ⟨a', ha', -, hvalue⟩ := (ofBinary64?_of_whole hfinite hx).1 hlt
  cases h.symm.trans ha'
  exact hvalue

theorem negative_of_ofBinary64? (h : ofBinary64? x = some a) : a.negative = x.negative := by
  rw [ofBinary64?] at h
  split at h
  · cases h
  · obtain ⟨p, -, h⟩ := Option.bind_eq_some_iff.1 h
    exact (ofSigned?_eq_some h).2.2

theorem value_eq_signOf_mul (d : Decimal) : d.value = signOf d.negative * |d.value| := by
  rw [abs_value_eq_worth, value, cast_signed, worth, mul_div_assoc]

/-- The decimal of a zero is worth nothing, whatever its sign. -/
theorem value_of_isZero (hx : x.isZero = true) (h : ofBinary64? x = some a) : a.value = 0 := by
  have hexponent : x.exponent = -1074 := by
    rw [Binary64.isZero, beq_iff_eq] at hx
    rw [Binary64.exponent, hx, if_pos (twoTo_pos 52)]
  obtain ⟨hfinite, -⟩ := exists_ofBinary64?_iff.1 ⟨a, h⟩
  obtain ⟨a', ha', -, -, hzero⟩ := ofBinary64?_of_fraction hfinite (by omega)
  cases h.symm.trans ha'
  rw [← isZero_iff, isZero, hzero (Binary64.mantissa_of_isZero hx)]
  rfl

/-- **A double of a larger magnitude has a decimal of no smaller one.** Those with bits behind
the point lose digits in order, and end up below the others, which lose none. -/
theorem abs_value_le_of_magnitude_le (h : x.magnitude ≤ y.magnitude)
    (ha : ofBinary64? x = some a) (hb : ofBinary64? y = some b) : |a.value| ≤ |b.value| := by
  rcases lt_or_ge y.exponent 0 with hy | hy
  · have hx : x.exponent < 0 := (Binary64.exponent_le_of_magnitude_le h).trans_lt hy
    rw [abs_value_of_fraction hx ha, abs_value_of_fraction hy hb]
    refine worth_shorten_le ?_
    rw [worth_of_tens (tens_halved_le hx), worth_of_tens (tens_halved_le hy)]
    exact value_halved_le hx hy h
  · rw [value_eq_of_whole hy hb]
    rcases lt_or_ge x.exponent 0 with hx | hx
    · obtain ⟨hfinite, -⟩ := exists_ofBinary64?_iff.1 ⟨a, ha⟩
      obtain ⟨a', ha', -, hbits, -⟩ := ofBinary64?_of_fraction hfinite hx
      cases ha.symm.trans ha'
      calc |a.value| ≤ a.coefficient := by
            rw [abs_value_eq_worth, worth]
            exact div_le_self (Nat.cast_nonneg _) (Nat.one_le_cast.2 (tenTo_pos _))
        _ ≤ twoTo 52 := Nat.cast_le.2 hbits
        _ ≤ y.mantissa := Nat.cast_le.2 (Binary64.twoTo_le_mantissa hy)
        _ ≤ y.mantissa * 2 ^ y.exponent :=
            le_mul_of_one_le_right (Nat.cast_nonneg _) (one_le_zpow₀ one_le_two hy)
        _ = |y.value| := (Binary64.abs_value_eq y).symm
    · rw [value_eq_of_whole hx ha]
      exact Binary64.abs_value_le_of_magnitude_le h

/-- **The decimal of a larger double is no smaller**, though it may be the same: the decimals
of doubles are in the order of the doubles. -/
theorem value_le_of_orderKey_le (h : x.orderKey ≤ y.orderKey) (ha : ofBinary64? x = some a)
    (hb : ofBinary64? y = some b) : a.value ≤ b.value := by
  have hapos := abs_nonneg a.value
  have hbpos := abs_nonneg b.value
  rw [value_eq_signOf_mul a, value_eq_signOf_mul b, negative_of_ofBinary64? ha,
    negative_of_ofBinary64? hb]
  unfold Binary64.orderKey at h
  cases hx : x.negative <;> cases hy : y.negative <;>
    simp only [hx, hy, signOf, if_true, if_false, Bool.false_eq_true] at h ⊢
  · have := abs_value_le_of_magnitude_le (Int.ofNat_le.1 h) ha hb
    linarith
  · -- neither is more than nothing
    have hzero : y.isZero = true := by
      rw [Binary64.isZero, beq_iff_eq]
      omega
    have := abs_value_le_of_magnitude_le (by omega) ha hb
    rw [value_of_isZero hzero hb, abs_zero] at this ⊢
    linarith
  · linarith
  · have := abs_value_le_of_magnitude_le (by omega) hb ha
    linarith

end Decimal

end PushFeed
