import Corsair.Book.Ledger

namespace Corsair.Book

open BrokerApi

def fillPnl (registry : ProductRegistry) (marks : PositionKey → ℚ) (f : BookFill) : ℚ :=
  f.quantity * (marks f.key - f.price) * multiplierOf registry f.product

def Conserved (registry : ProductRegistry) (fills : List BookFill) (market : MarketView) (marks : PositionKey → ℚ) :
    Prop :=
  (filled registry fills).realizedPnlPersisted + (filled registry fills).computeMtmPnl market =
    (fills.map (fillPnl registry marks)).sum

section Added

def hg : ProductRegistry := ProductRegistry.register ∅ ⟨"HG", 25000, 3/10⟩

def june : NaiveDate := (NaiveDate.fromYmdOpt 2026 6 26).getD .epoch

def callAt (quantity : ℤ) (price : ℚ) : BookFill := ⟨"HG", 6, june, .call, quantity, price, 0, 0⟩

def flatMarket (price : ℚ) : MarketView where
  underlyingPrice := fun _ => some 6
  ivFor := fun _ _ _ _ => none
  currentPrice := fun _ _ _ _ => some price

end Added

-- Bought at 1 and again at 3, marked at 3: the second fill writes 3 over the
-- average of both lots and the gain of the first one is gone.
theorem added_lot_not_conserved :
    Marked (flatMarket 3) (fun _ => 3) (filled hg [callAt 1 1, callAt 1 3]) ∧
      ¬Conserved hg [callAt 1 1, callAt 1 3] (flatMarket 3) (fun _ => 3) := by
  constructor
  · unfold Marked
    decide +kernel
  · unfold Conserved
    decide +kernel

theorem mtm_remarks_at_last_fill (registry : ProductRegistry) (fills : List BookFill) (market : MarketView)
    (marks : PositionKey → ℚ) (marked : Marked market marks (filled registry fills)) :
    (filled registry fills).computeMtmPnl market =
        ∑ key ∈ (fills.map BookFill.key).toFinset,
          held fills key * (marks key - lastPrice fills key) * multiplierOf registry key.product ∧
      ∀ f, held fills f.key = 0 → f.price = marks f.key →
        Marked market marks (filled registry (fills ++ [f])) →
        (filled registry (fills ++ [f])).computeMtmPnl market = (filled registry fills).computeMtmPnl market := by
  constructor
  · exact mtm_of_ledger marked fun f member => List.mem_toFinset.mpr (List.mem_map_of_mem member)
  · intro f flat atMark later
    have covered : ∀ g ∈ fills ++ [f], g.key ∈ ((fills ++ [f]).map BookFill.key).toFinset :=
      fun g member => List.mem_toFinset.mpr (List.mem_map_of_mem member)
    rw [mtm_of_ledger later covered,
      mtm_of_ledger marked fun g member => covered g (List.mem_append_left _ member)]
    refine Finset.sum_congr rfl fun key _ => ?_
    unfold openPnl
    by_cases own : key = f.key
    · subst own
      rw [flat]
      by_cases trades : f.quantity = 0
      · rw [held_snoc, flat, trades]
        simp
      · rw [(touched fills trades).2, atMark]
        simp
    · rw [(untouched fills own).1, (untouched fills own).2]

theorem mtm_remarks_at_last_fill_added :
    (filled hg [callAt 1 1, callAt 1 3]).computeMtmPnl (flatMarket 3) =
        ∑ key ∈ ([callAt 1 1, callAt 1 3].map BookFill.key).toFinset,
          held [callAt 1 1, callAt 1 3] key * (3 - lastPrice [callAt 1 1, callAt 1 3] key) *
            multiplierOf hg key.product ∧
      ∀ f, held [callAt 1 1, callAt 1 3] f.key = 0 → f.price = 3 →
        Marked (flatMarket 3) (fun _ => 3) (filled hg ([callAt 1 1, callAt 1 3] ++ [f])) →
        (filled hg ([callAt 1 1, callAt 1 3] ++ [f])).computeMtmPnl (flatMarket 3) =
          (filled hg [callAt 1 1, callAt 1 3]).computeMtmPnl (flatMarket 3) :=
  mtm_remarks_at_last_fill hg [callAt 1 1, callAt 1 3] (flatMarket 3) (fun _ => 3)
    (by unfold Marked; decide +kernel)

end Corsair.Book
