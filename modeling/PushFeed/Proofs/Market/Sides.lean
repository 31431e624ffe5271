import Mathlib.Data.List.Forall2
import Mathlib.Data.List.Basic
import PushFeed.Market.OfFrames
import PushFeed.Proofs.Number.Conversion
/-!
# The sides of a view

Each side of a view shows the levels of its list whose price and shares have a decimal, the
best price first. Levels of one price keep their order, whatever their places, for sorting is
stable (`filter_mergeSort`). So the first level of a side is a best one, and sorting a view
again changes nothing (`MarketBook.toView_shows`).
-/

namespace PushFeed

/-- **Sorting is stable**: elements that may stand either way round keep their order. -/
theorem filter_mergeSort {α : Type} {le : α → α → Bool}
    (htrans : ∀ a b c, le a b = true → le b c = true → le a c = true)
    (htotal : ∀ a b, (le a b || le b a) = true) {p : α → Bool}
    (hp : ∀ a b, p a = true → p b = true → le a b = true) (l : List α) :
    (l.mergeSort le).filter p = l.filter p := by
  have hordered : (l.filter p).Pairwise fun a b => le a b = true := by
    refine List.pairwise_of_forall_mem_list fun a ha b hb => ?_
    exact hp a b (List.of_mem_filter ha) (List.of_mem_filter hb)
  have hsub := (List.sublist_mergeSort htrans htotal hordered List.filter_sublist).filter p
  simp only [List.filter_filter, Bool.and_self] at hsub
  exact (hsub.eq_of_length ((List.mergeSort_perm l le).filter p).length_eq.symm).symm

namespace Binary64

/-- Whether a double has a decimal. -/
def HasDecimal (x : Binary64) : Prop := x.isFinite = true ∧ |x.value| < twoTo 96

instance (x : Binary64) : Decidable x.HasDecimal := inferInstanceAs (Decidable (_ ∧ _))

end Binary64

namespace BookSide

/-- Whether a price is no worse than another one: higher bids and lower asks are better. -/
def NoWorse : BookSide → ℚ → ℚ → Prop
  | .buy, p, q => q ≤ p
  | .sell, p, q => p ≤ q

/-- How the levels of a side are sorted. -/
def inOrder : BookSide → BookLevel → BookLevel → Bool
  | .buy => BookLevel.highestFirst
  | .sell => BookLevel.lowestFirst

variable {side : BookSide} {a b : BookLevel}

theorem inOrder_iff : side.inOrder a b = true ↔ side.NoWorse a.price.value b.price.value := by
  cases side with
  | buy => exact Decimal.le_iff
  | sell => exact Decimal.le_iff

theorem inOrder_trans (a b c : BookLevel) (hab : side.inOrder a b = true)
    (hbc : side.inOrder b c = true) : side.inOrder a c = true := by
  rw [inOrder_iff] at hab hbc ⊢
  cases side with
  | buy => exact le_trans hbc hab
  | sell => exact le_trans hab hbc

theorem inOrder_total (a b : BookLevel) : (side.inOrder a b || side.inOrder b a) = true := by
  rw [Bool.or_eq_true, inOrder_iff, inOrder_iff]
  cases side with
  | buy => exact le_total _ _
  | sell => exact le_total _ _

end BookSide

/-! ## Levels -/

namespace OrderLevel

/-- Whether price and shares of a level have a decimal. -/
def HasDecimals (l : OrderLevel) : Prop := l.price.HasDecimal ∧ l.shares.HasDecimal

instance (l : OrderLevel) : Decidable l.HasDecimals := inferInstanceAs (Decidable (_ ∧ _))

/-- What a level of a message is shown as on a side. -/
structure ShowsAs (side : BookSide) (l : OrderLevel) (shown : BookLevel) : Prop where
  price : Decimal.ofBinary64? l.price = some shown.price
  shares : Decimal.ofBinary64? l.shares = some shown.shares
  users : shown.users = l.users
  side : shown.side = side

variable {side : BookSide} {l : OrderLevel} {shown : BookLevel}

theorem toBookLevel?_eq_some_iff : l.toBookLevel? side = some shown ↔ ShowsAs side l shown := by
  constructor
  · intro h
    obtain ⟨price, hprice, h⟩ := Option.bind_eq_some_iff.1 h
    obtain ⟨shares, hshares, h⟩ := Option.bind_eq_some_iff.1 h
    cases h
    exact ⟨hprice, hshares, rfl, rfl⟩
  · rintro ⟨hprice, hshares, husers, hside⟩
    rw [toBookLevel?, hprice, hshares, ← husers, ← hside]
    rfl

/-- A level is shown if and only if its price and shares have a decimal. -/
theorem exists_showsAs_iff : (∃ shown, ShowsAs side l shown) ↔ l.HasDecimals := by
  rw [HasDecimals, Binary64.HasDecimal, Binary64.HasDecimal, ← Decimal.exists_ofBinary64?_iff,
    ← Decimal.exists_ofBinary64?_iff]
  constructor
  · rintro ⟨shown, h⟩
    exact ⟨⟨_, h.price⟩, ⟨_, h.shares⟩⟩
  · rintro ⟨⟨price, hprice⟩, ⟨shares, hshares⟩⟩
    exact ⟨⟨price, shares, l.users, side⟩, hprice, hshares, rfl, rfl⟩

/-- The levels of a side before they are sorted. -/
theorem forall₂_bookLevels (side : BookSide) (levels : List OrderLevel) :
    List.Forall₂ (ShowsAs side) (levels.filter (·.HasDecimals)) (bookLevels side levels) := by
  induction levels with
  | nil => exact .nil
  | cons l levels ih =>
    rw [bookLevels, List.filterMap_cons]
    cases hl : l.toBookLevel? side with
    | some shown =>
      have hshown := toBookLevel?_eq_some_iff.1 hl
      have hyes : l.HasDecimals := exists_showsAs_iff.1 ⟨shown, hshown⟩
      rw [List.filter_cons, if_pos (decide_eq_true hyes)]
      exact .cons hshown ih
    | none =>
      have hnot : ¬l.HasDecimals := by
        intro h
        obtain ⟨shown, hshown⟩ := exists_showsAs_iff.2 h
        rw [toBookLevel?_eq_some_iff.2 hshown] at hl
        cases hl
      rw [List.filter_cons, if_neg (mt of_decide_eq_true hnot)]
      exact ih

end OrderLevel

/-! ## Sides -/

/-- What a side shows of a list of levels: those with decimals, the best first, and those of
one price in the order they came in. -/
structure BookSide.Shows (side : BookSide) (levels : List OrderLevel)
    (shown : List BookLevel) : Prop where
  converted : ∃ converted,
    List.Forall₂ (OrderLevel.ShowsAs side) (levels.filter (·.HasDecimals)) converted ∧
      shown.Perm converted ∧
      ∀ q, shown.filter (·.price.value = q) = converted.filter (·.price.value = q)
  sorted : shown.Pairwise fun a b => side.NoWorse a.price.value b.price.value

/-- Which price is the best of a side: one that no other is better than, and none only where
there is no level. -/
structure BookSide.IsBest (side : BookSide) (shown : List BookLevel) (best? : Option Decimal) :
    Prop where
  none_iff : best? = none ↔ shown = []
  mem : ∀ p, best? = some p → ∃ l ∈ shown, l.price = p
  noWorse : ∀ p, best? = some p → ∀ l ∈ shown, side.NoWorse p.value l.price.value

namespace BookSide

variable {side : BookSide} {levels : List OrderLevel} {shown : List BookLevel}

theorem shows_mergeSort (side : BookSide) (levels : List OrderLevel) :
    side.Shows levels ((bookLevels side levels).mergeSort side.inOrder) := by
  refine ⟨⟨bookLevels side levels, OrderLevel.forall₂_bookLevels side levels,
    List.mergeSort_perm _ _, fun q => ?_⟩, ?_⟩
  · refine filter_mergeSort inOrder_trans inOrder_total (fun a b ha hb => ?_) _
    rw [inOrder_iff, of_decide_eq_true ha, of_decide_eq_true hb]
    cases side <;> exact le_refl q
  · exact (List.pairwise_mergeSort inOrder_trans inOrder_total _).imp inOrder_iff.1

/-- What a side shows are levels of its list. -/
theorem Shows.exists_showsAs (h : side.Shows levels shown) {s : BookLevel} (hs : s ∈ shown) :
    ∃ l ∈ levels, OrderLevel.ShowsAs side l s := by
  obtain ⟨converted, hconverted, hperm, -⟩ := h.converted
  have hmem := hperm.mem_iff.1 hs
  obtain ⟨i, hi, rfl⟩ := List.getElem_of_mem hmem
  have hi' : i < (levels.filter (·.HasDecimals)).length := by rwa [hconverted.length_eq]
  exact ⟨_, List.mem_of_mem_filter (List.getElem_mem hi'), hconverted.get hi' hi⟩

/-- The users of a side are those of the levels it shows. -/
theorem Shows.sum_users (h : side.Shows levels shown) :
    (shown.map (·.users.toNat)).sum =
      ((levels.filter (·.HasDecimals)).map (·.users.toNat)).sum := by
  obtain ⟨converted, hconverted, hperm, -⟩ := h.converted
  rw [(hperm.map _).sum_eq]
  clear hperm
  generalize levels.filter (·.HasDecimals) = left at hconverted
  induction hconverted with
  | nil => rfl
  | cons hshows _ ih =>
    rw [List.map_cons, List.map_cons, List.sum_cons, List.sum_cons, ih, hshows.users]

/-- The first level of a side is a best one. -/
theorem Shows.isBest (h : side.Shows levels shown) :
    side.IsBest shown (shown.head?.map (·.price)) := by
  cases shown with
  | nil => exact ⟨by simp, nofun, nofun⟩
  | cons first rest =>
    refine ⟨by simp, ?_, ?_⟩
    · rintro p ⟨⟩
      exact ⟨first, List.mem_cons_self, rfl⟩
    · rintro p ⟨⟩ l hl
      rcases List.mem_cons.1 hl with rfl | hrest
      · cases side <;> exact le_refl _
      · exact List.rel_of_pairwise_cons h.sorted hrest

/-- A side that is sorted already stays as it is. -/
theorem Shows.mergeSort_eq (h : side.Shows levels shown) : shown.mergeSort side.inOrder = shown :=
  List.mergeSort_of_pairwise (h.sorted.imp inOrder_iff.2)

end BookSide

namespace MarketBook

/-- The levels of a message on a side. -/
def levels (b : MarketBook) (o : Outcome) : BookSide → List OrderLevel
  | .buy => b.bids o
  | .sell => b.asks o

theorem shows_levels (b : MarketBook) (now : Instant) (o : Outcome) (side : BookSide) :
    BookSide.Shows side (b.levels o side) ((b.toView now).levels o side) := by
  cases o <;> cases side <;> exact BookSide.shows_mergeSort _ _

/-- **What the view of a market's books shows.** Each of its four sides has exactly the levels
of its list whose price and shares have a decimal, the best price first and levels of one price
in the order they came in. The best bid is the highest and the best ask the lowest, and there
is none only where the side is empty. Sorting the view again changes nothing. -/
theorem toView_shows (b : MarketBook) (now : Instant) :
    (b.toView now).marketId = b.marketId ∧
      (∀ o side, BookSide.Shows side (b.levels o side) ((b.toView now).levels o side)) ∧
      (∀ o, BookSide.buy.IsBest ((b.toView now).bids o) ((b.toView now).bestBid? o) ∧
        BookSide.sell.IsBest ((b.toView now).asks o) ((b.toView now).bestAsk? o)) ∧
      (b.toView now).sortLevels = b.toView now := by
  refine ⟨rfl, b.shows_levels now, fun o => ⟨?_, ?_⟩, ?_⟩
  · exact (b.shows_levels now o .buy).isBest
  · exact (b.shows_levels now o .sell).isBest
  · have hsorted (o side) := (b.shows_levels now o side).mergeSort_eq
    have hyesBids := hsorted .yes .buy
    have hyesAsks := hsorted .yes .sell
    have hnoBids := hsorted .no .buy
    have hnoAsks := hsorted .no .sell
    simp only [BookView.levels, BookView.bids, BookView.asks, BookSide.inOrder]
      at hyesBids hyesAsks hnoBids hnoAsks
    rw [BookView.sortLevels, hyesBids, hyesAsks, hnoBids, hnoAsks]

end MarketBook

end PushFeed
