import PushFeed.Number.Decimal.OfBinary64
import PushFeed.Proofs.Number.Value
/-!
# Which doubles have a decimal

A finite double has a decimal if and only if it is below 96 bits
(`exists_ofBinary64?_iff`). A double whose last bit stands before the point keeps its value.
Any other is below 52 bits, and its decimal has no more digits than that
(`ofBinary64?_cases`), for places are dropped until they fit (`Shortens`).
-/

namespace PushFeed

theorem twoTo_succ (n : Nat) : twoTo (n + 1) = twoTo n * 2 := Nat.pow_succ 2 n

theorem twoTo_pos (n : Nat) : 0 < twoTo n := Nat.pow_pos (by decide)

theorem cast_twoTo_pos (n : Nat) : (0 : ℚ) < twoTo n := Nat.cast_pos.2 (twoTo_pos n)

namespace Binary64

variable {x : Binary64}

/-- The number that a finite double stands for. -/
def value (x : Binary64) : ℚ :=
  signOf x.negative * (x.mantissa * twoTo x.exponent.toNat) / twoTo (-x.exponent).toNat

theorem abs_value (x : Binary64) :
    |x.value| = x.mantissa * twoTo x.exponent.toNat / twoTo (-x.exponent).toNat := by
  rw [value, abs_div, abs_mul, abs_signOf, one_mul, Nat.abs_cast, ← Nat.cast_mul, Nat.abs_cast]

theorem mantissa_lt (x : Binary64) : x.mantissa < twoTo 53 := by
  unfold mantissa
  have hdouble : twoTo 53 = twoTo 52 + twoTo 52 := by decide
  split
  · omega
  · have := Nat.mod_lt x.magnitude (twoTo_pos 52)
    omega

theorem mantissa_of_isZero (h : x.isZero = true) : x.mantissa = 0 := by
  rw [isZero, beq_iff_eq] at h
  rw [mantissa, h, if_pos (twoTo_pos 52)]

/-- A double that is not negative, be it the negative zero. -/
theorem zero_le_value (h : x.negative = true → x.mantissa = 0) : 0 ≤ x.value := by
  rw [value]
  cases hsign : x.negative with
  | false =>
    rw [signOf, if_neg Bool.false_ne_true, one_mul]
    positivity
  | true => rw [h hsign, Nat.cast_zero, zero_mul, mul_zero, zero_div]

/-- The sign of a double is that of its number. -/
theorem zero_le_value_iff : 0 ≤ x.value ↔ 0 ≤ x.orderKey := by
  constructor
  · intro h
    by_contra hbelow
    unfold orderKey at hbelow
    split at hbelow
    · rename_i hnegative
      have hmantissa : 0 < x.mantissa := by
        have := twoTo_pos 52
        unfold mantissa
        split <;> omega
      have hpositive : 0 < |x.value| := by
        rw [abs_value]
        have := twoTo_pos x.exponent.toNat
        have := twoTo_pos (-x.exponent).toNat
        positivity
      have hsigned : x.value = -|x.value| := by
        rw [abs_value, value, hnegative, signOf, if_pos rfl]
        ring
      linarith
    · omega
  · intro h
    refine zero_le_value fun hnegative => ?_
    rw [orderKey, if_pos hnegative] at h
    exact mantissa_of_isZero (beq_iff_eq.2 (by omega))

end Binary64

namespace Decimal

/-! ## Doubling -/

/-- Within 96 bits every doubling is one of the digits. -/
theorem doubleTimes?_eq_some {n : Nat} {w : Working} (h : w.digits * twoTo n < twoTo 96) :
    doubleTimes? n w = some ⟨w.digits * twoTo n, w.tens - n⟩ := by
  induction n generalizing w with
  | zero => simp [doubleTimes?]
  | succ n ih =>
    have hsplit : w.digits * twoTo (n + 1) = w.digits * 2 * twoTo n := by
      rw [twoTo_succ, Nat.mul_comm (twoTo n), Nat.mul_assoc]
    rw [hsplit] at h ⊢
    have hfits : w.digits < twoTo 95 := by
      have hone := Nat.le_mul_of_pos_right (w.digits * 2) (twoTo_pos n)
      have hlast : twoTo 96 = twoTo 95 * 2 := twoTo_succ 95
      omega
    rw [doubleTimes?, double?, if_pos hfits, Option.bind_some, ih h]
    have htens : w.tens - 1 - (n : Int) = w.tens - ((n + 1 : Nat) : Int) := by omega
    rw [htens]

/-- **Past 96 bits there is no decimal**: as many tens are left as doublings, which is one
too many when the digits are full. -/
theorem doubleTimes?_eq_none {n : Nat} {w : Working} (htens : w.tens = n)
    (hdigits : w.digits < twoTo 96) (h : twoTo 96 ≤ w.digits * twoTo n) :
    doubleTimes? n w = none := by
  induction n generalizing w with
  | zero =>
    have hone : w.digits * twoTo 0 = w.digits := Nat.mul_one _
    omega
  | succ n ih =>
    rw [doubleTimes?, double?]
    split
    · rename_i hfits
      have hlast : twoTo 96 = twoTo 95 * 2 := twoTo_succ 95
      refine ih (w := ⟨w.digits * 2, w.tens - 1⟩) ?_ ?_ ?_
      · show w.tens - 1 = n
        omega
      · show w.digits * 2 < twoTo 96
        omega
      · show twoTo 96 ≤ w.digits * 2 * twoTo n
        rwa [Nat.mul_assoc, Nat.mul_comm 2, ← twoTo_succ]
    · rw [if_pos (by omega), Option.bind_none]

/-! ## Halving -/

/-- **Halving never makes a number larger**, which for each of its steps is five times the
digits at one ten less. -/
theorem halveTimes_spec (n : Nat) (w : Working) :
    w.tens ≤ (halveTimes n w).tens ∧ (halveTimes n w).tens ≤ w.tens + n ∧
      (halveTimes n w).digits * tenTo ((halveTimes n w).tens - w.tens).toNat ≤
        w.digits * Nat.pow 5 n := by
  induction n generalizing w with
  | zero => simp [halveTimes]
  | succ n ih =>
    have hfive : Nat.pow 5 (n + 1) = 5 * Nat.pow 5 n := (Nat.pow_succ 5 n).trans (Nat.mul_comm _ 5)
    have hhalf : (w.digits / 2) * 10 ≤ w.digits * 5 := by omega
    obtain ⟨hleast, hmost, hdigits⟩ := ih (halve w)
    rw [halveTimes, hfive, ← Nat.mul_assoc]
    generalize halveTimes n (halve w) = w' at hleast hmost hdigits ⊢
    -- one step halves the digits and takes a ten, or multiplies them by five
    have hstep : halve w = ⟨w.digits / 2, w.tens + 1⟩ ∨ halve w = ⟨w.digits * 5, w.tens⟩ := by
      unfold halve
      split
      · exact .inl rfl
      · split
        · exact .inr rfl
        · exact .inl rfl
    rcases hstep with hw | hw
    · rw [hw] at hleast hmost hdigits
      simp only at hleast hmost hdigits
      have hten : tenTo (w'.tens - w.tens).toNat = tenTo (w'.tens - (w.tens + 1)).toNat * 10 := by
        rw [show (w'.tens - w.tens).toNat = (w'.tens - (w.tens + 1)).toNat + 1 by omega, tenTo_add]
      refine ⟨by omega, by omega, ?_⟩
      calc w'.digits * tenTo (w'.tens - w.tens).toNat
          = w'.digits * tenTo (w'.tens - (w.tens + 1)).toNat * 10 := by rw [hten, Nat.mul_assoc]
        _ ≤ w.digits / 2 * Nat.pow 5 n * 10 := Nat.mul_le_mul_right 10 hdigits
        _ = w.digits / 2 * 10 * Nat.pow 5 n := Nat.mul_right_comm _ _ _
        _ ≤ w.digits * 5 * Nat.pow 5 n := Nat.mul_le_mul_right _ hhalf
    · rw [hw] at hleast hmost hdigits
      simp only at hleast hmost hdigits
      exact ⟨hleast, by omega, hdigits⟩

/-! ## Dropping places -/

/-- Digits and places after some of the places have been dropped: no more of either, and
less than one unit of the last place above what there was. -/
structure Shortens (p p' : Nat × Nat) : Prop where
  scale_le : p'.2 ≤ p.2
  digits_le : p'.1 ≤ p.1
  lt_add : p'.1 * tenTo (p.2 - p'.2) < p.1 + tenTo (p.2 - p'.2)

variable {p p' p'' : Nat × Nat} {digits scale : Nat}

theorem Shortens.refl (p : Nat × Nat) : Shortens p p := by
  refine ⟨Nat.le_refl _, Nat.le_refl _, ?_⟩
  have hnone : tenTo 0 = 1 := rfl
  rw [Nat.sub_self, hnone]
  omega

theorem Shortens.trans (h : Shortens p p') (h' : Shortens p' p'') : Shortens p p'' := by
  refine ⟨h'.scale_le.trans h.scale_le, h'.digits_le.trans h.digits_le, ?_⟩
  have hsplit : tenTo (p.2 - p''.2) = tenTo (p'.2 - p''.2) * tenTo (p.2 - p'.2) := by
    rw [← tenTo_add]
    have := h.scale_le
    have := h'.scale_le
    congr 1
    omega
  have hnext : p''.1 * tenTo (p'.2 - p''.2) + 1 ≤ p'.1 + tenTo (p'.2 - p''.2) := h'.lt_add
  have hscaled := Nat.mul_le_mul_right (tenTo (p.2 - p'.2)) hnext
  rw [Nat.add_mul, Nat.add_mul, Nat.one_mul] at hscaled
  have hfirst := h.lt_add
  rw [hsplit, ← Nat.mul_assoc]
  omega

/-- A place less is a tenth of the digits, or one more. -/
theorem shortens_of_le {digits' : Nat} (hle : digits' ≤ digits) (h : digits' * 10 < digits + 10) :
    Shortens (digits, scale + 1) (digits', scale) := by
  refine ⟨Nat.le_succ scale, hle, ?_⟩
  have hone : tenTo (scale + 1 - scale) = 10 := by rw [Nat.add_sub_cancel_left]
  rw [hone]
  exact h

theorem shortens_dropDigit (digits scale : Nat) :
    Shortens (digits, scale + 1) (dropDigit digits, scale) := by
  refine shortens_of_le ?_ ?_ <;> unfold dropDigit <;> split <;> omega

theorem shortens_capScale (fuel digits scale : Nat) :
    Shortens (digits, scale) (capScale fuel digits scale) := by
  induction fuel generalizing digits scale with
  | zero => exact .refl _
  | succ fuel ih =>
    rw [capScale]
    split
    · split
      · refine ⟨Nat.zero_le _, Nat.zero_le _, ?_⟩
        have := tenTo_pos scale
        simp only [Nat.zero_mul, Nat.sub_zero]
        omega
      · rename_i hlarge _
        obtain ⟨places, rfl⟩ := Nat.exists_eq_add_of_le' (Nat.zero_lt_of_lt hlarge)
        exact (shortens_dropDigit digits places).trans (ih _ _)
    · exact .refl _

theorem capScale_le {fuel : Nat} (h : scale ≤ fuel + 28) : (capScale fuel digits scale).2 ≤ 28 := by
  induction fuel generalizing digits scale with
  | zero => simpa [capScale] using h
  | succ fuel ih =>
    rw [capScale]
    split
    · split
      · exact Nat.zero_le 28
      · exact ih (by omega)
    · omega

theorem shortens_capDigits (digits scale : Nat) :
    Shortens (digits, scale) (capDigits digits scale) := by
  induction scale generalizing digits with
  | zero => exact .refl _
  | succ scale ih =>
    rw [capDigits]
    split
    · exact (shortens_dropDigit digits scale).trans (ih _)
    · exact .refl _

/-- Digits with places left have at most 52 bits. -/
theorem capDigits_lt (digits scale : Nat) :
    (capDigits digits scale).2 = 0 ∨ (capDigits digits scale).1 < twoTo 52 := by
  induction scale generalizing digits with
  | zero => exact .inl rfl
  | succ scale ih =>
    rw [capDigits]
    split
    · exact ih _
    · exact .inr (by omega)

theorem shortens_trimPlaces (digits scale : Nat) :
    Shortens (digits, scale) (trimPlaces digits scale) := by
  induction scale generalizing digits with
  | zero => exact .refl _
  | succ scale ih =>
    rw [trimPlaces]
    split
    · exact (shortens_of_le (by omega) (by omega)).trans (ih _)
    · exact .refl _

/-- **The digits and places of a working number** without tens: at most 28 places, and none
behind more than 52 bits. -/
theorem exists_places? {w : Working} (h : w.tens ≤ 0) :
    ∃ p, places? w = some p ∧ Shortens (w.digits, (-w.tens).toNat) p ∧ p.2 ≤ 28 ∧
      (p.2 = 0 ∨ p.1 < twoTo 52) := by
  refine ⟨_, by rw [places?, if_neg (by omega)], ?_⟩
  have hfew : (capScale (-w.tens).toNat w.digits (-w.tens).toNat).2 ≤ 28 :=
    capScale_le (Nat.le_add_right _ _)
  have hscale := shortens_capScale (-w.tens).toNat w.digits (-w.tens).toNat
  generalize capScale (-w.tens).toNat w.digits (-w.tens).toNat = p at hfew hscale ⊢
  have hshort := capDigits_lt p.1 p.2
  have hdigits := shortens_capDigits p.1 p.2
  generalize capDigits p.1 p.2 = p' at hshort hdigits ⊢
  have htrim := shortens_trimPlaces p'.1 p'.2
  refine ⟨(hscale.trans hdigits).trans htrim,
    (htrim.scale_le.trans hdigits.scale_le).trans hfew, ?_⟩
  exact hshort.imp (fun hnone => Nat.le_zero.1 (htrim.scale_le.trans_eq hnone))
    fun hlt => Nat.lt_of_le_of_lt htrim.digits_le hlt

/-! ## Conversion -/

variable {x : Binary64} {d : Decimal}

/-- **A double with bits behind the point** is below 52 bits, before the conversion and after
it. -/
theorem le_of_shortens_halveTimes {n mantissa : Nat} {p : Nat × Nat} (hn : 0 < n)
    (hmantissa : mantissa < twoTo 53)
    (h : Shortens ((halveTimes n ⟨mantissa, -n⟩).digits,
      (-(halveTimes n ⟨mantissa, -n⟩).tens).toNat) p) :
    p.1 ≤ twoTo 52 * tenTo p.2 := by
  obtain ⟨hleast, hmost, hdigits⟩ := halveTimes_spec n ⟨mantissa, -n⟩
  generalize halveTimes n ⟨mantissa, -n⟩ = w at h hleast hmost hdigits
  obtain ⟨hscale, -, hless⟩ := h
  simp only at hleast hmost hdigits hscale hless
  obtain ⟨places, hplaces⟩ : ∃ places : Nat, w.tens = -places := ⟨(-w.tens).toNat, by omega⟩
  rw [hplaces, neg_neg, Int.toNat_natCast] at hless hscale
  rw [hplaces, show (-(places : Int) - -n).toNat = n - places by omega] at hdigits
  -- the digits before the point, counted in units of the last place
  have hwhole : w.digits < twoTo 52 * tenTo places := by
    have hmore : mantissa * Nat.pow 5 n < twoTo 52 * tenTo n := by
      have htwo : 2 ≤ twoTo n := by
        obtain ⟨k, rfl⟩ := Nat.exists_eq_add_of_lt hn
        rw [Nat.zero_add, twoTo_succ]
        exact Nat.le_mul_of_pos_left 2 (twoTo_pos k)
      have hten : tenTo n = twoTo n * Nat.pow 5 n := Nat.mul_pow 2 5 n
      calc mantissa * Nat.pow 5 n
          < twoTo 52 * 2 * Nat.pow 5 n :=
            Nat.mul_lt_mul_of_pos_right hmantissa (Nat.pow_pos (by decide))
        _ ≤ twoTo 52 * twoTo n * Nat.pow 5 n :=
            Nat.mul_le_mul_right _ (Nat.mul_le_mul_left _ htwo)
        _ = twoTo 52 * tenTo n := by rw [hten, Nat.mul_assoc]
    refine Nat.lt_of_mul_lt_mul_right (a := tenTo (n - places)) ?_
    rw [Nat.mul_assoc, tenTo_mul_sub (by omega)]
    exact Nat.lt_of_le_of_lt hdigits hmore
  have hsplit := tenTo_mul_sub hscale
  have hscaled :
      p.1 * tenTo (places - p.2) < (twoTo 52 * tenTo p.2 + 1) * tenTo (places - p.2) := by
    rw [Nat.add_mul, Nat.one_mul, Nat.mul_assoc, hsplit]
    omega
  exact Nat.lt_succ_iff.1 (Nat.lt_of_mul_lt_mul_right hscaled)

/-- A double with all its bits before the point stands for a whole number. -/
theorem value_of_whole {n : Nat} (h : x.exponent = n) :
    x.value = signOf x.negative * (x.mantissa * twoTo n : Nat) := by
  have hnone : (-(n : Int)).toNat = 0 := by omega
  have hone : twoTo 0 = 1 := rfl
  rw [Binary64.value, h, Int.toNat_natCast, hnone, hone]
  push_cast
  rw [div_one]

/-- **A double with all its bits before the point** has its own value as a decimal, below 96
bits, and has none from there on. -/
theorem ofBinary64?_of_whole (hfinite : x.isFinite = true) (h : 0 ≤ x.exponent) :
    (|x.value| < twoTo 96 → ∃ d, ofBinary64? x = some d ∧ d.scale = 0 ∧ d.value = x.value) ∧
      (twoTo 96 ≤ |x.value| → ofBinary64? x = none) := by
  obtain ⟨n, hn⟩ : ∃ n : Nat, x.exponent = n := ⟨x.exponent.toNat, by omega⟩
  have hworking : working? x = doubleTimes? n ⟨x.mantissa, n⟩ := by
    rw [working?, if_neg (by omega), hn, Int.toNat_natCast]
  rw [value_of_whole hn, abs_mul, abs_signOf, one_mul, Nat.abs_cast, Nat.cast_lt, Nat.cast_le,
    ofBinary64?, hfinite, hworking]
  refine ⟨fun hlt => ?_, fun hle => ?_⟩
  · obtain ⟨d, hd⟩ := exists_ofSigned? x.negative hlt (Nat.zero_le 28)
    obtain ⟨hcoefficient, hscale, hnegative⟩ := ofSigned?_eq_some hd
    have hone : tenTo 0 = 1 := rfl
    refine ⟨d, ?_, hscale, ?_⟩
    · rw [doubleTimes?_eq_some (w := ⟨x.mantissa, n⟩) hlt]
      simpa [places?, capScale, capDigits, trimPlaces] using hd
    · rw [value, cast_signed, hcoefficient, hscale, hnegative, hone, Nat.cast_one, div_one]
  · have hsmall : x.mantissa < twoTo 96 := x.mantissa_lt.trans (by decide)
    rw [doubleTimes?_eq_none (w := ⟨x.mantissa, n⟩) rfl hsmall hle]
    rfl

/-- **A double with bits behind the point** has a decimal of at most 52 bits. -/
theorem ofBinary64?_of_fraction (hfinite : x.isFinite = true) (h : x.exponent < 0) :
    ∃ d, ofBinary64? x = some d ∧ d.negative = x.negative ∧ d.coefficient ≤ twoTo 52 ∧
      (x.mantissa = 0 → d.coefficient = 0) := by
  obtain ⟨n, hn⟩ : ∃ n : Nat, x.exponent = -n := ⟨(-x.exponent).toNat, by omega⟩
  have hworking : working? x = some (halveTimes n ⟨x.mantissa, -n⟩) := by
    rw [working?, if_pos h, hn, neg_neg, Int.toNat_natCast]
  obtain ⟨-, htens, hdigits⟩ := halveTimes_spec n ⟨x.mantissa, -n⟩
  obtain ⟨p, hp, hshortens, hfew, hshort⟩ :=
    exists_places? (w := halveTimes n ⟨x.mantissa, -n⟩) (by simp only at htens; omega)
  have hbits : p.1 ≤ twoTo 52 := by
    rcases hshort with hnone | hlt
    · have hwhole := le_of_shortens_halveTimes (by omega) x.mantissa_lt hshortens
      have hone : tenTo 0 = 1 := rfl
      rwa [hnone, hone, Nat.mul_one] at hwhole
    · exact hlt.le
  obtain ⟨d, hd⟩ := exists_ofSigned? x.negative (Nat.lt_of_le_of_lt hbits (by decide)) hfew
  obtain ⟨hcoefficient, -, hnegative⟩ := ofSigned?_eq_some hd
  refine ⟨d, ?_, hnegative, hcoefficient.trans_le hbits, fun hzero => ?_⟩
  · rw [ofBinary64?, hfinite, hworking, Option.bind_some, hp]
    exact hd
  · rw [hzero] at hdigits hshortens
    simp only [Nat.zero_mul] at hdigits
    have hnone := (Nat.mul_eq_zero.1 (Nat.le_zero.1 hdigits)).resolve_right (tenTo_pos _).ne'
    have hless := hshortens.digits_le
    simp only at hless
    omega

/-- A double with bits behind the point is below 52 bits. -/
theorem abs_value_lt_of_fraction (h : x.exponent < 0) : |x.value| < twoTo 52 := by
  obtain ⟨n, hn⟩ : ∃ n : Nat, x.exponent = -(n + 1 : Nat) := ⟨(-x.exponent).toNat - 1, by omega⟩
  have hnone : (-((n + 1 : Nat) : Int)).toNat = 0 := by omega
  have hone : twoTo 0 = 1 := rfl
  have hmantissa : x.mantissa < twoTo 52 * twoTo (n + 1) := by
    rw [twoTo_succ n, Nat.mul_comm (twoTo n), ← Nat.mul_assoc]
    exact Nat.lt_of_lt_of_le x.mantissa_lt (Nat.le_mul_of_pos_right _ (twoTo_pos n))
  rw [Binary64.abs_value, hn, hnone, hone, neg_neg, Int.toNat_natCast,
    div_lt_iff₀ (cast_twoTo_pos (n + 1)), Nat.cast_one, mul_one]
  exact_mod_cast hmantissa

/-- **A double has a decimal if and only if it is finite and below 96 bits.** -/
theorem exists_ofBinary64?_iff :
    (∃ d, ofBinary64? x = some d) ↔ x.isFinite = true ∧ |x.value| < twoTo 96 := by
  cases hfinite : x.isFinite with
  | false => simp [ofBinary64?, hfinite]
  | true =>
    rw [and_iff_right rfl]
    rcases lt_or_ge x.exponent 0 with hneg | hpos
    · obtain ⟨d, hd, -⟩ := ofBinary64?_of_fraction hfinite hneg
      have hlt : |x.value| < twoTo 96 :=
        (abs_value_lt_of_fraction hneg).trans (Nat.cast_lt.2 (by decide))
      exact iff_of_true ⟨d, hd⟩ hlt
    · obtain ⟨hsome, hnone⟩ := ofBinary64?_of_whole hfinite hpos
      constructor
      · rintro ⟨d, hd⟩
        by_contra hge
        rw [hnone (not_lt.1 hge)] at hd
        cases hd
      · intro hlt
        obtain ⟨d, hd, -⟩ := hsome hlt
        exact ⟨d, hd⟩

/-- **What the decimal of a double is**: the value of the double, where that is whole, or no
more than 52 bits, where it is below that. -/
theorem ofBinary64?_cases (h : ofBinary64? x = some d) :
    (d.scale = 0 ∧ d.value = x.value) ∨
      (d.negative = x.negative ∧ d.coefficient ≤ twoTo 52 ∧ |x.value| < twoTo 52 ∧
        (x.mantissa = 0 → d.coefficient = 0)) := by
  obtain ⟨hfinite, hlt⟩ := exists_ofBinary64?_iff.1 ⟨d, h⟩
  rcases lt_or_ge x.exponent 0 with hneg | hpos
  · obtain ⟨d', hd', hnegative, hbits, hzero⟩ := ofBinary64?_of_fraction hfinite hneg
    cases h.symm.trans hd'
    exact .inr ⟨hnegative, hbits, abs_value_lt_of_fraction hneg, hzero⟩
  · obtain ⟨d', hd', hscale, hvalue⟩ := (ofBinary64?_of_whole hfinite hpos).1 hlt
    cases h.symm.trans hd'
    exact .inl ⟨hscale, hvalue⟩

/-- The decimal of a double that is not negative is not negative. -/
theorem zero_le_value_of_ofBinary64? (hx : x.negative = true → x.mantissa = 0)
    (h : ofBinary64? x = some d) : 0 ≤ d.value := by
  rcases ofBinary64?_cases h with ⟨-, hvalue⟩ | ⟨hnegative, -, -, hzero⟩
  · rw [hvalue]
    exact Binary64.zero_le_value hx
  · rw [zero_le_value_iff, signed, hnegative]
    split
    · rename_i hsign
      rw [hzero (hx hsign)]
      exact le_of_eq rfl
    · exact Int.natCast_nonneg _

end Decimal

end PushFeed
