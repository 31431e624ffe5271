import PushFeed.Proofs.Market.Sides
import PushFeed.Proofs.Number.Order
import PushFeed.Wire.Conformance
/-!
# The best bid, before and after conversion

The best bid for yes can be asked of a message, which takes the highest of its doubles, or of
its view, which takes the first of its sorted decimals. Since decimals are in the order of their
doubles, both are the same number (`MarketBook.bestBids_agree`), also where the doubles of
different bids have one decimal and where bids are zeros of both signs.
-/

namespace PushFeed

/-! ## The highest of several doubles -/

namespace Binary64

variable {x y first : Binary64} {numbers rest : List Binary64}

theorem isNaN_of_isFinite (h : x.isFinite = true) : x.isNaN = false := by
  rw [isFinite, decide_eq_true_iff] at h
  rw [isNaN, decide_eq_false_iff_not]
  omega

theorem max_cases (hx : x.isNaN = false) (hy : y.isNaN = false) :
    (x.max y = x ∧ y.orderKey ≤ x.orderKey) ∨ (x.max y = y ∧ x.orderKey ≤ y.orderKey) := by
  simp only [max, lt, hx, hy, Bool.not_false, Bool.and_self, Bool.true_and, decide_eq_true_iff,
    Bool.false_eq_true, if_false]
  split
  · exact .inr ⟨rfl, by omega⟩
  · exact .inl ⟨rfl, by omega⟩

/-- Whether a number is one of several and none of them is above it. -/
structure IsHighest (numbers : List Binary64) (x : Binary64) : Prop where
  mem : x ∈ numbers
  le : ∀ y ∈ numbers, y.orderKey ≤ x.orderKey

theorem IsHighest.concat (h : IsHighest numbers x) (hx : x.isNaN = false)
    (hy : y.isNaN = false) : IsHighest (numbers ++ [y]) (x.max y) := by
  have hmem (z : Binary64) : z ∈ numbers ++ [y] ↔ z ∈ numbers ∨ z = y := by
    rw [List.mem_append, List.mem_singleton]
  rcases max_cases hx hy with ⟨hmax, hless⟩ | ⟨hmax, hless⟩
  · rw [hmax]
    refine ⟨(hmem x).2 (.inl h.mem), fun z hz => ?_⟩
    rcases (hmem z).1 hz with hold | rfl
    · exact h.le z hold
    · exact hless
  · rw [hmax]
    refine ⟨(hmem y).2 (.inr rfl), fun z hz => ?_⟩
    rcases (hmem z).1 hz with hold | rfl
    · exact (h.le z hold).trans hless
    · exact le_refl _

/-- **Going through numbers finds the highest**, where all of them are numbers. -/
theorem isHighest_foldl_max (h : ∀ y ∈ first :: rest, y.isNaN = false) :
    IsHighest (first :: rest) (rest.foldl max first) := by
  induction rest using List.reverseRecOn with
  | nil =>
    refine ⟨List.mem_cons_self, fun y hy => ?_⟩
    rw [List.mem_singleton.1 hy, List.foldl_nil]
  | append_singleton rest y ih =>
    rw [← List.cons_append] at h ⊢
    have hrest := ih fun z hz => h z (List.mem_append_left _ hz)
    rw [List.foldl_append]
    exact hrest.concat (h _ (List.mem_append_left _ hrest.mem)) (h y (by simp))

theorem HasDecimal.isNaN (h : x.HasDecimal) : x.isNaN = false := isNaN_of_isFinite h.1

end Binary64

/-! ## Books -/

namespace BookSide

variable {side : BookSide} {levels : List OrderLevel} {shown : List BookLevel}

/-- A level with decimals is shown. -/
theorem Shows.exists_shown (h : side.Shows levels shown) {l : OrderLevel} (hl : l ∈ levels)
    (hdecimals : l.HasDecimals) : ∃ s ∈ shown, OrderLevel.ShowsAs side l s := by
  obtain ⟨converted, hconverted, hperm, -⟩ := h.converted
  have hmem : l ∈ levels.filter (·.HasDecimals) :=
    List.mem_filter.2 ⟨hl, decide_eq_true hdecimals⟩
  obtain ⟨i, hi, rfl⟩ := List.getElem_of_mem hmem
  have hi' : i < converted.length := by rwa [← hconverted.length_eq]
  exact ⟨converted[i], hperm.mem_iff.2 (List.getElem_mem hi'), hconverted.get hi hi'⟩

/-- Levels that all have decimals are shown as none only where there are none. -/
theorem Shows.eq_nil_iff (h : side.Shows levels shown) (hdecimals : ∀ l ∈ levels, l.HasDecimals) :
    shown = [] ↔ levels = [] := by
  constructor
  · rintro rfl
    refine List.eq_nil_iff_forall_not_mem.2 fun l hl => ?_
    obtain ⟨s, hs, -⟩ := h.exists_shown hl (hdecimals l hl)
    cases hs
  · rintro rfl
    refine List.eq_nil_iff_forall_not_mem.2 fun s hs => ?_
    obtain ⟨l, hl, -⟩ := h.exists_showsAs hs
    cases hl

end BookSide

namespace MarketBook

variable {b : MarketBook} {x : Binary64}

theorem bestYesBid?_eq (b : MarketBook) :
    b.bestYesBid? = match (b.bids .yes).map (·.price) with
      | [] => none
      | first :: rest => some (rest.foldl Binary64.max first) := by
  rw [bestYesBid?]
  cases (b.bids .yes).map (·.price) with
  | nil => rfl
  | cons first rest =>
    rw [List.foldl_cons]
    exact List.foldl_hom some (fun _ _ => rfl)

theorem bestYesBid?_eq_none_iff : b.bestYesBid? = none ↔ b.bids .yes = [] := by
  rw [bestYesBid?_eq]
  cases b.bids .yes with
  | nil => simp
  | cons l levels => simp

theorem isHighest_bestYesBid? (hdecimals : ∀ l ∈ b.bids .yes, l.HasDecimals)
    (h : b.bestYesBid? = some x) : Binary64.IsHighest ((b.bids .yes).map (·.price)) x := by
  rw [bestYesBid?_eq] at h
  have hnumbers : ∀ y ∈ (b.bids .yes).map (·.price), y.isNaN = false := by
    intro y hy
    obtain ⟨l, hl, rfl⟩ := List.mem_map.1 hy
    exact (hdecimals l hl).1.isNaN
  cases hprices : (b.bids .yes).map (·.price) with
  | nil =>
    rw [hprices] at h
    cases h
  | cons first rest =>
    rw [hprices] at h hnumbers
    cases h
    exact Binary64.isHighest_foldl_max hnumbers

/-- **The two ways to the best bid agree.** Where every bid for yes has a decimal price and
size, the view's best bid is the number that the message's best bid converts to, and there is
neither only where there is no bid. The bids may be any number, in any order and of any sign,
so nothing is asked of the message's checks. -/
theorem bestBids_agree (b : MarketBook) (now : Instant)
    (hdecimals : ∀ l ∈ b.bids .yes, l.HasDecimals) :
    (b.bestYesBid? = none ↔ b.bids .yes = []) ∧
      ((b.toView now).bestBid? .yes = none ↔ b.bids .yes = []) ∧
      ∀ x, b.bestYesBid? = some x → ∃ raw shown, Decimal.ofBinary64? x = some raw ∧
        (b.toView now).bestBid? .yes = some shown ∧ shown.value = raw.value := by
  have hshows := b.shows_levels now .yes .buy
  have hbest : BookSide.buy.IsBest ((b.toView now).levels .yes .buy)
      ((b.toView now).bestBid? .yes) := hshows.isBest
  have hnone : (b.toView now).bestBid? .yes = none ↔ b.bids .yes = [] :=
    hbest.none_iff.trans (hshows.eq_nil_iff hdecimals)
  refine ⟨bestYesBid?_eq_none_iff, hnone, fun x hx => ?_⟩
  obtain ⟨hmem, hhighest⟩ := isHighest_bestYesBid? hdecimals hx
  obtain ⟨l, hl, rfl⟩ := List.mem_map.1 hmem
  obtain ⟨s, hs, hprice, -⟩ := hshows.exists_shown hl (hdecimals l hl)
  cases hshown : (b.toView now).bestBid? .yes with
  | none =>
    rw [hnone.1 hshown] at hl
    cases hl
  | some shown =>
    obtain ⟨s', hs', rfl⟩ := hbest.mem shown hshown
    obtain ⟨l', hl', hprice', -⟩ := hshows.exists_showsAs hs'
    refine ⟨s.price, s'.price, hprice, rfl, le_antisymm ?_ (hbest.noWorse _ hshown s hs)⟩
    exact Decimal.value_le_of_orderKey_le (hhighest _ (List.mem_map_of_mem hl')) hprice' hprice

/-- A negative zero and two neighbouring bids near 0.3 that have one decimal. -/
def tied : MarketBook :=
  ⟨"m", some ⟨[⟨Binary64.mk 0x8000000000000000, Binary64.mk 0x3FF0000000000000, 1⟩,
    ⟨Binary64.mk 0x3FD3333333333333, Binary64.mk 0x3FF0000000000000, 2⟩,
    ⟨Binary64.mk 0x3FD3333333333334, Binary64.mk 0x3FF0000000000000, 3⟩], []⟩, none⟩

/-- Their book passes its checks, and the higher of the two is the best bid of both. -/
theorem bestBids_agree_tied :
    marketBookLayout.verify tied.toContent = .ok () ∧
      ∃ raw shown, Decimal.ofBinary64? ⟨0x3FD3333333333334⟩ = some raw ∧
        (tied.toView ⟨0, 0⟩).bestBid? .yes = some shown ∧ shown.value = raw.value := by
  refine ⟨rfl, ?_⟩
  obtain ⟨-, -, hagree⟩ := bestBids_agree tied ⟨0, 0⟩ (by decide +kernel)
  exact hagree _ (by decide +kernel)

end MarketBook

end PushFeed
