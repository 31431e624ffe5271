import PushFeed.Proofs.Market.Frames
/-!
# Percentages

A price that was sent as a double has an exact percentage below a hundredth of 96 bits, and
none from there on (`PricePoint.isPercentOf_percent`). So a price frame that decodes, and even
makes a point, is not described where one of its prices is larger
(`PricePayload.percentages_of_decode`).
-/

namespace PushFeed

open Wire

/-! ## One price -/

namespace PricePoint

variable {x : Binary64} {price : Decimal}

theorem value_hundred : (Decimal.ofInt 100).value = 100 := by
  have hsigned : (Decimal.ofInt 100).signed = 100 := rfl
  have hplaces : tenTo (Decimal.ofInt 100).scale = 1 := rfl
  rw [Decimal.value, hsigned, hplaces, Nat.cast_one, div_one]
  norm_cast

/-- A price with few enough digits has an exact percentage. -/
theorem exists_percent (h : price.coefficient * 100 < twoTo 96) :
    ∃ p, percent price = .ok p ∧ p.value = 100 * price.value := by
  obtain ⟨p, hp, hvalue⟩ := Decimal.exists_mul_eq_ok (a := price) (b := Decimal.ofInt 100) h
    price.scale_le
  exact ⟨p, hp, by rw [hvalue, value_hundred, mul_comm]⟩

/-- What becomes of the percentage of a price that was sent as a double: it is exact below a
hundredth of 96 bits, and overflows from there on. -/
structure IsPercentOf (x : Binary64) (price : Decimal) (percent : Except Overflow Decimal) :
    Prop where
  shown : Decimal.ofBinary64? x = some price
  exact : 100 * x.value < twoTo 96 → ∃ p, percent = .ok p ∧ p.value = 100 * price.value
  overflows : twoTo 96 ≤ 100 * x.value → percent = .error .multiplication

/-- **A price has a percentage if and only if it is below a hundredth of 96 bits.** -/
theorem isPercentOf_percent (hx : 0 ≤ x.value) (h : Decimal.ofBinary64? x = some price) :
    IsPercentOf x price (percent price) := by
  suffices hpercent : (100 * x.value < twoTo 96 →
      ∃ p, percent price = .ok p ∧ p.value = 100 * price.value) ∧
      (twoTo 96 ≤ 100 * x.value → percent price = .error .multiplication) from
    ⟨h, hpercent.1, hpercent.2⟩
  rcases Decimal.ofBinary64?_cases h with ⟨hscale, hvalue⟩ | ⟨-, hbits, hlt, -⟩
  · -- a whole price has no places to lose
    have hcoefficient : x.value = price.coefficient := by
      have hsigned := Decimal.zero_le_value_iff.1 (hvalue.symm ▸ hx)
      have hplaces : tenTo 0 = 1 := rfl
      rw [← hvalue, Decimal.value, hscale, hplaces, Nat.cast_one, div_one, ← Decimal.natAbs_signed,
        Nat.cast_natAbs, abs_of_nonneg hsigned]
    rw [hcoefficient, mul_comm]
    refine ⟨fun hlt => exists_percent (by exact_mod_cast hlt), fun hle => ?_⟩
    exact Decimal.mul_eq_error_of_whole hscale rfl (by exact_mod_cast hle)
  · refine ⟨fun _ => exists_percent ?_, fun hle => ?_⟩
    · exact Nat.lt_of_le_of_lt (Nat.mul_le_mul_right 100 hbits) (by decide)
    · have hsmall : (100 * twoTo 52 : ℚ) < twoTo 96 := by
        exact_mod_cast (by decide : 100 * twoTo 52 < twoTo 96)
      have hbelow := (le_abs_self x.value).trans_lt hlt
      linarith

/-! ## Both prices -/

variable {point : PricePoint} {y n : Binary64}

/-- **The line about prices needs both percentages**, and reports the one that overflows. -/
theorem line_spec (hyes : IsPercentOf y point.yes point.yesPercent)
    (hno : IsPercentOf n point.no point.noPercent) :
    (100 * y.value < twoTo 96 → 100 * n.value < twoTo 96 → ∃ text, point.line = .ok text) ∧
      (twoTo 96 ≤ 100 * y.value ∨ twoTo 96 ≤ 100 * n.value →
        point.line = .error .multiplication) := by
  constructor
  · intro hy hn
    obtain ⟨yes, hyes', -⟩ := hyes.exact hy
    obtain ⟨no, hno', -⟩ := hno.exact hn
    rw [line, pricesLine, hyes', hno']
    exact ⟨_, rfl⟩
  · intro hlarge
    rcases lt_or_ge (100 * y.value) (twoTo 96) with hy | hy
    · obtain ⟨yes, hyes', -⟩ := hyes.exact hy
      rw [line, pricesLine, hyes', hno.overflows (hlarge.resolve_left (not_le.2 hy))]
      rfl
    · rw [line, pricesLine, hyes.overflows hy]
      rfl

end PricePoint

namespace PricePayload

variable {p : PricePayload} {bytes : Bytes} {v : Json}

theorem isPercentOf_toPricePoint? {now : Instant} {point : PricePoint}
    (hyes : amountOk p.yesPrice = true) (hno : amountOk p.noPrice = true)
    (h : p.toPricePoint? now = some point) :
    PricePoint.IsPercentOf p.yesPrice point.yes point.yesPercent ∧
      PricePoint.IsPercentOf p.noPrice point.no point.noPercent := by
  obtain ⟨time, -, h⟩ := Option.bind_eq_some_iff.1 h
  obtain ⟨yes, hyes', h⟩ := Option.bind_eq_some_iff.1 h
  obtain ⟨no, hno', h⟩ := Option.bind_eq_some_iff.1 h
  cases h
  have hpositive {x : Binary64} (hx : amountOk x = true) : 0 ≤ x.value :=
    Binary64.zero_le_value (Binary64.mantissa_of_amountOk hx)
  exact ⟨PricePoint.isPercentOf_percent (hpositive hyes) hyes',
    PricePoint.isPercentOf_percent (hpositive hno) hno'⟩

/-- **When a price frame is described.** The percentages of a price point are exact below a
hundredth of 96 bits and overflow from there on; the line is written if and only if neither
overflows. -/
theorem percentages_of_decode (h : MessageType.pricePayload.decode bytes = .ok v) :
    ∃ p, Message.ofJson .price v = .ok (.price p) ∧ ∀ now point,
      p.toPricePoint? now = some point →
        PricePoint.IsPercentOf p.yesPrice point.yes point.yesPercent ∧
        PricePoint.IsPercentOf p.noPrice point.no point.noPercent ∧
        ((∃ text, point.line = .ok text) ↔
          100 * p.yesPrice.value < twoTo 96 ∧ 100 * p.noPrice.value < twoTo 96) ∧
        ((∃ text, point.line = .ok text) ∨ point.line = .error .multiplication) := by
  obtain ⟨p, hv, hyes, hno⟩ := exists_of_decode h
  refine ⟨p, hv, fun now point hpoint => ?_⟩
  obtain ⟨hyes', hno'⟩ := isPercentOf_toPricePoint? hyes hno hpoint
  obtain ⟨hline, herror⟩ := PricePoint.line_spec hyes' hno'
  refine ⟨hyes', hno', ?_⟩
  by_cases hboth : 100 * p.yesPrice.value < twoTo 96 ∧ 100 * p.noPrice.value < twoTo 96
  · have htext := hline hboth.1 hboth.2
    exact ⟨iff_of_true htext hboth, .inl htext⟩
  · have hlarge : twoTo 96 ≤ 100 * p.yesPrice.value ∨ twoTo 96 ≤ 100 * p.noPrice.value := by
      rwa [not_and_or, not_lt, not_lt] at hboth
    refine ⟨iff_of_false ?_ hboth, .inr (herror hlarge)⟩
    rintro ⟨text, htext⟩
    rw [herror hlarge] at htext
    cases htext

/-- Prices of one half and one quarter. -/
def modest : PricePayload :=
  ⟨"m", Binary64.mk 0x3FE0000000000000, Binary64.mk 0x3FD0000000000000, 1⟩

/-- They have percentages and are described. -/
theorem percentages_of_decode_modest :
    ∃ point, modest.toPricePoint? ⟨0, 0⟩ = some point ∧
      (∃ percent, point.yesPercent = .ok percent ∧ percent.value = 100 * point.yes.value) ∧
      ∃ text, point.line = .ok text := by
  have hdecode : MessageType.pricePayload.decode
      (MessageType.pricePayload.layout.encode modest.toContent) =
        .ok (MessageType.pricePayload.layout.toJson modest.toContent) := rfl
  have hread : Message.ofJson .price (MessageType.pricePayload.layout.toJson modest.toContent) =
      .ok (.price modest) := rfl
  obtain ⟨p, hv, hpoints⟩ := percentages_of_decode hdecode
  cases hv.symm.trans hread
  have hsome : (modest.toPricePoint? ⟨0, 0⟩).isSome = true := by decide +kernel
  obtain ⟨point, hpoint⟩ := Option.isSome_iff_exists.1 hsome
  obtain ⟨hyes, -, hline, -⟩ := hpoints ⟨0, 0⟩ point hpoint
  exact ⟨point, hpoint, hyes.exact (by decide +kernel),
    hline.2 ⟨by decide +kernel, by decide +kernel⟩⟩

/-- A price of 2⁹⁰, which has a decimal, but not a hundred times over. -/
def immense : PricePayload := ⟨"m", Binary64.mk 0x4590000000000000, Binary64.zero, 1⟩

/-- Its frame decodes and makes a point, which cannot be described. -/
theorem percent_immense :
    ∃ v, MessageType.pricePayload.decode
        (MessageType.pricePayload.layout.encode immense.toContent) = .ok v ∧
      Message.ofJson .price v = .ok (.price immense) ∧
      ∃ point, immense.toPricePoint? ⟨0, 0⟩ = some point ∧
        point.yesPercent = .error .multiplication ∧ point.line = .error .multiplication := by
  have hsome : (immense.toPricePoint? ⟨0, 0⟩).isSome = true := by decide +kernel
  obtain ⟨point, hpoint⟩ := Option.isSome_iff_exists.1 hsome
  obtain ⟨hyes, hno⟩ := isPercentOf_toPricePoint? rfl rfl hpoint
  have hlarge : (twoTo 96 : ℚ) ≤ 100 * immense.yesPrice.value := by decide +kernel
  exact ⟨_, rfl, rfl, point, hpoint, hyes.overflows hlarge,
    (PricePoint.line_spec hyes hno).2 (.inl hlarge)⟩

end PricePayload

end PushFeed
