import Corsair.Book.ProductDelta
import Corsair.Hedge.Target
import Corsair.Daemon.HedgeReconcile

namespace Corsair.Daemon

open BrokerApi Book Hedge MarketData Risk

-- The delta a greek refresh computes for a contract of the market data.
def marketDelta (pricing : Pricing) (r : Runtime) (product : String) (t : OptionTick) : Option ℚ := do
  let f ← r.marketData.view.underlyingPrice product
  let tte := pricing.timeToExpiryYears t.expiry
  if f ≤ 0 ∨ tte ≤ 0 then none
  let fallback := ((HashMap.get r.portfolio.registry product).map (·.defaultIv)).getD (3/10)
  let iv := (r.marketData.view.ivFor product t.strike t.expiry t.right).getD fallback
  let multiplier := (r.portfolio.registry.multiplierFor product).getD 100
  return (pricing.computeGreeks f t.strike tte iv 0 t.right.asChar multiplier).delta

-- The decision handle_fill takes on the fill.
def decidedOnFill (r : Runtime) (fill : Fill) : Option HedgeAction := do
  if (offerFill r.hedge fill (managedProducts r.hedge)).2 then none
  let (product, t) ← matchedOption r fill.instrumentId
  let mgr ← r.hedge.forProduct product
  return (mgr.rebalanceOnFill (bookFill r.portfolio product t fill)).2

-- A fill of an option that has a hedge manager and a delta in the market view.
structure OptionFilled (pricing : Pricing) (r : Runtime) (fill : Fill) (product : String) (t : OptionTick)
    (mgr : HedgeManager) (d : ℚ) : Prop where
  indexed : Indexed r.portfolio
  untaken : (offerFill r.hedge fill (managedProducts r.hedge)).2 = false
  matched : matchedOption r fill.instrumentId = some (product, t)
  managed : r.hedge.forProduct product = some mgr
  viewed : marketDelta pricing r product t = some d

-- The delta the book holds the contract at, where it holds it.
def storedDelta (portfolio : PortfolioState) (product : String) (t : OptionTick) : ℚ :=
  ((portfolio.getPosition (makeKey product t.strike t.expiry t.right)).map (·.delta)).getD 0

-- The book's delta once the fill contributes that much a contract.
def deltaWith (r : Runtime) (fill : Fill) (product : String) (perContract : ℚ) : ℚ :=
  r.portfolio.deltaForProduct product + perContract * qtySigned fill

section Trades

variable (m : HedgeManager) (delta : ℚ)

-- The trade of the on-fill hedge for a book of that delta.
def tradeFor : ℤ :=
  if m.cfg.rebalanceOnFill ∧ m.cfg.toleranceDeltas < |delta + m.hedgeQty| then targetFor delta - m.hedgeQty else 0

def Trades : Prop := m.cfg.toleranceDeltas < |delta + m.hedgeQty| ∧ targetFor delta ≠ m.hedgeQty

instance : Decidable (Trades m delta) :=
  inferInstanceAs (Decidable (m.cfg.toleranceDeltas < |delta + m.hedgeQty| ∧ targetFor delta ≠ m.hedgeQty))

-- The hedge that offsets the delta is an i32.
def Hedgeable : Prop := -(2^31 - 1/2) ≤ delta ∧ delta ≤ 2^31 + 1/2

end Trades

def SeesFill (r : Runtime) (fill : Fill) (product : String) (mgr : HedgeManager) (d : ℚ) : Prop :=
  let delta := deltaWith r fill product d
  ∃ action, decidedOnFill r fill = some action ∧ action.trade = tradeFor mgr delta ∧
    (mgr.cfg.toleranceDeltas < |delta + mgr.hedgeQty| → |delta + mgr.hedgeQty + action.trade| ≤ 1/2)

-- The two deltas of the book call for the same trade.
structure SameTrade (m : HedgeManager) (stored actual : ℚ) : Prop where
  trades : Trades m stored ↔ Trades m actual
  target : Trades m actual → targetFor stored = targetFor actual

-- The delta stored for the contract calls for the trade its own delta calls for,
-- and that trade can be made.
structure StoredServes (m : HedgeManager) (stored actual : ℚ) : Prop where
  same : m.cfg.rebalanceOnFill → SameTrade m stored actual
  hedgeable : m.cfg.toleranceDeltas < |actual + m.hedgeQty| → m.cfg.rebalanceOnFill → Hedgeable actual
  disabled : m.cfg.toleranceDeltas < |actual + m.hedgeQty| → ¬m.cfg.rebalanceOnFill → |actual + m.hedgeQty| ≤ 1/2

section Decision

theorem hedgeable_iff (delta : ℚ) : Hedgeable delta ↔ |delta + targetFor delta| ≤ 1/2 := by
  have near := roundHalfAway_near delta
  rw [abs_le] at near
  unfold Hedgeable targetFor
  rw [abs_le]
  generalize roundHalfAway delta = n at near ⊢
  rcases lt_or_ge (2^31) n with above | low
  · have beyond : ((2^31 + 1 : ℤ) : ℚ) ≤ n := by exact_mod_cast above
    have clamped : saturate (-2^31) (2^31 - 1) (-n) = -2^31 := by
      unfold saturate
      omega
    rw [clamped]
    push_cast at beyond ⊢
    constructor <;> intro given <;> constructor <;> linarith [given.1, given.2, near.1]
  · rcases lt_or_ge n (-(2^31 - 1)) with below | high
    · have least : n ≤ -2^31 := by omega
      have beyond : (n : ℚ) ≤ ((-2^31 : ℤ) : ℚ) := by exact_mod_cast least
      have clamped : saturate (-2^31) (2^31 - 1) (-n) = 2^31 - 1 := by
        unfold saturate
        omega
      rw [clamped]
      push_cast at beyond ⊢
      constructor <;> intro given <;> constructor <;> linarith [given.1, given.2, near.2]
    · have exact_target : saturate (-2^31) (2^31 - 1) (-n) = -n := by
        unfold saturate
        omega
      have upper : (n : ℚ) ≤ ((2^31 : ℤ) : ℚ) := by exact_mod_cast low
      have lower : ((-(2^31 - 1) : ℤ) : ℚ) ≤ n := by exact_mod_cast high
      rw [exact_target]
      push_cast at upper lower ⊢
      constructor <;> intro given <;> constructor <;> linarith [near.1, near.2]

theorem rebalanceOnFill_trade (m : HedgeManager) (portfolio : PortfolioState) :
    (m.rebalanceOnFill portfolio).2.trade = tradeFor m (portfolio.deltaForProduct m.cfg.product) := by
  unfold HedgeManager.rebalanceOnFill tradeFor
  split
  · rename_i enabled
    simp only [enabled, true_and]
    exact HedgeManager.maybeRebalance_trade ..
  · rename_i disabled
    simp only [disabled, Bool.false_eq_true, false_and, if_false]
    rfl

theorem tradeFor_eq_iff {m : HedgeManager} (enabled : m.cfg.rebalanceOnFill) (stored actual : ℚ) :
    tradeFor m stored = tradeFor m actual ↔ SameTrade m stored actual := by
  have trade : ∀ delta, tradeFor m delta = if Trades m delta then targetFor delta - m.hedgeQty else 0 := by
    intro delta
    unfold tradeFor Trades
    simp only [enabled, true_and]
    by_cases same : targetFor delta = m.hedgeQty
    · simp [same]
    · simp [same]
  have nonzero : ∀ delta, Trades m delta → targetFor delta - m.hedgeQty ≠ 0 := fun delta trades => sub_ne_zero.mpr trades.2
  rw [trade, trade]
  constructor
  · intro equal
    by_cases before : Trades m stored
    · have after : Trades m actual := by
        by_contra quiet
        rw [if_pos before, if_neg quiet] at equal
        exact nonzero stored before equal
      rw [if_pos before, if_pos after] at equal
      exact ⟨iff_of_true before after, fun _ => by omega⟩
    · have after : ¬Trades m actual := by
        intro trades
        rw [if_neg before, if_pos trades] at equal
        exact nonzero actual trades equal.symm
      exact ⟨iff_of_false before after, fun trades => absurd trades after⟩
  · intro same
    by_cases after : Trades m actual
    · rw [if_pos after, if_pos (same.trades.mpr after), same.target after]
    · rw [if_neg after, if_neg fun before => after (same.trades.mp before)]

theorem stored_of_key {portfolio : PortfolioState} (indexed : Indexed portfolio) (product : String) (t : OptionTick)
    {pos : Book.Position} (member : pos ∈ portfolio.positions) (own : pos.key = makeKey product t.strike t.expiry t.right) :
    storedDelta portfolio product t = pos.delta := by
  obtain ⟨i, at_i⟩ := List.mem_iff_getElem?.mp member
  have found := (indexed.finds _ i).mpr ⟨pos, at_i, own⟩
  simp [storedDelta, PortfolioState.getPosition, found, at_i]

theorem stored_absent {portfolio : PortfolioState} (indexed : Indexed portfolio) (product : String) (t : OptionTick)
    (absent : ∀ p ∈ portfolio.positions, p.key ≠ makeKey product t.strike t.expiry t.right) :
    storedDelta portfolio product t = 0 := by
  have missing : portfolio.index.get (makeKey product t.strike t.expiry t.right) = none := by
    rw [Option.eq_none_iff_forall_ne_some]
    intro i found
    obtain ⟨pos, at_i, own⟩ := (indexed.finds _ i).mp found
    exact absent pos (List.mem_of_getElem? at_i) own
  simp [storedDelta, PortfolioState.getPosition, missing]

theorem booked_delta {portfolio : PortfolioState} (indexed : Indexed portfolio) (product : String) (t : OptionTick)
    (fill : Fill) :
    (bookFill portfolio product t fill).deltaForProduct product =
      portfolio.deltaForProduct product + storedDelta portfolio product t * qtySigned fill := by
  unfold bookFill
  by_cases zero : qtySigned fill = 0
  · rw [zero, addFill_zero]
    simp
  · obtain ⟨-, -, -, shape⟩ := addFill_cases indexed product t.strike t.expiry t.right zero fill.price.exact 0 0
    obtain ⟨w, total, from_position⟩ := @filled_weighed product (·.delta) _ _ _ shape fun _ _ _ => rfl
    have stored : w = storedDelta portfolio product t := by
      rcases from_position with ⟨pos, member, own, weight⟩ | ⟨absent, weight⟩
      · rw [weight, stored_of_key indexed product t member own]
      · rw [weight, stored_absent indexed product t absent]
        rfl
    simp only [freshPosition, if_true, stored] at total
    exact total

theorem decidedOnFill_eq {pricing : Pricing} {r : Runtime} {fill : Fill} {product : String} {t : OptionTick}
    {mgr : HedgeManager} {d : ℚ} (given : OptionFilled pricing r fill product t mgr d) :
    decidedOnFill r fill = some (mgr.rebalanceOnFill (bookFill r.portfolio product t fill)).2 := by
  simp [decidedOnFill, given.untaken, given.matched, given.managed]

-- What handle_fill sends is what it decided.
theorem handleFill_hedges {pricing : Pricing} {r : Runtime} {fill : Fill} {product : String} {t : OptionTick}
    {mgr : HedgeManager} {d : ℚ} (given : OptionFilled pricing r fill product t mgr d) (now : ℕ)
    (opens : Except BrokerError (List OpenOrder)) :
    ∃ hedged outcome action, decidedOnFill r fill = some action ∧
      handleFill r fill now opens =
        (hedged, onOutcome opens outcome ++ .hedge product .rebalanceOnFill :: executeHedge hedged product action) := by
  let booked : Runtime := { r with portfolio := bookFill r.portfolio product t fill }
  have handled : handleFill r fill now opens =
      ((hedgeOnFill { booked with risk := (fillCheck booked now).1 } product).1,
        onOutcome opens (fillCheck booked now).2 ++
          (hedgeOnFill { booked with risk := (fillCheck booked now).1 } product).2) := by
    simp only [handleFill, given.untaken, given.matched]
    rfl
  have managed : { booked with risk := (fillCheck booked now).1 }.hedge.forProduct product = some mgr := given.managed
  rw [hedgeOnFill, managed] at handled
  exact ⟨_, _, _, decidedOnFill_eq given, handled⟩

end Decision

section Opening

-- No volatility of its own, and the product's default is none either.
def deepCall : Runtime where
  mode := .live
  config := ⟨true, some "DU1"⟩
  portfolio := .new (ProductRegistry.register ∅ ⟨"HG", 25000, 0⟩)
  risk := .new hgLimits
  hedge := ⟨[hgManager]⟩
  marketData := (MarketDataState.new.registerOption "HG" 6 june26 .call 900).setUnderlying "HG" 7
  account := ⟨0, 0, 0, 0, 0, 0⟩

def callTick : OptionTick := { OptionTick.new 6 june26 .call with instrumentId := some 900 }

def boughtThree : Fill := ⟨"e1", 7, 900, .buy, 3, .finite (11/10), 0, none⟩

end Opening

-- Three calls of delta one are bought, and nothing is hedged.
theorem opening_fill_unseen :
    OptionFilled intrinsicPricing deepCall boughtThree "HG" callTick hgManager 1 ∧
      ¬SeesFill deepCall boughtThree "HG" hgManager 1 := by
  refine ⟨⟨new_indexed _, by decide +kernel, by decide +kernel, by decide +kernel, by decide +kernel⟩, ?_⟩
  intro sees
  obtain ⟨action, decided, same, -⟩ := sees
  have idle : decidedOnFill deepCall boughtThree = some .idle := by decide +kernel
  rw [idle] at decided
  cases decided
  revert same
  decide +kernel

theorem sees_fill_iff {pricing : Pricing} {r : Runtime} {fill : Fill} {product : String} {t : OptionTick}
    {mgr : HedgeManager} {d : ℚ} (given : OptionFilled pricing r fill product t mgr d) :
    SeesFill r fill product mgr d ↔
      StoredServes mgr (deltaWith r fill product (storedDelta r.portfolio product t)) (deltaWith r fill product d) := by
  have own : mgr.cfg.product = product := by simpa using List.find?_some given.managed
  have trade : (mgr.rebalanceOnFill (bookFill r.portfolio product t fill)).2.trade =
      tradeFor mgr (deltaWith r fill product (storedDelta r.portfolio product t)) := by
    rw [rebalanceOnFill_trade, own, booked_delta given.indexed]
    rfl
  unfold SeesFill
  simp only [decidedOnFill_eq given, Option.some.injEq, exists_eq_left', trade]
  generalize deltaWith r fill product (storedDelta r.portfolio product t) = stored
  generalize deltaWith r fill product d = actual
  have offset : mgr.cfg.rebalanceOnFill → mgr.cfg.toleranceDeltas < |actual + mgr.hedgeQty| →
      actual + mgr.hedgeQty + tradeFor mgr actual = actual + targetFor actual := by
    intro enabled beyond
    rw [tradeFor, if_pos ⟨enabled, beyond⟩]
    push_cast
    ring
  have nothing : ¬mgr.cfg.rebalanceOnFill → ∀ delta, tradeFor mgr delta = 0 := by
    intro disabled delta
    rw [tradeFor, if_neg fun both => disabled both.1]
  constructor
  · intro sees
    obtain ⟨same, within⟩ := sees
    refine ⟨fun enabled => (tradeFor_eq_iff enabled _ _).mp same, ?_, ?_⟩
    · intro beyond enabled
      have near := within beyond
      rwa [same, offset enabled beyond, ← hedgeable_iff] at near
    · intro beyond disabled
      simpa [nothing disabled] using within beyond
  · intro serves
    by_cases enabled : mgr.cfg.rebalanceOnFill
    · have same := (tradeFor_eq_iff enabled _ _).mpr (serves.same enabled)
      refine ⟨same, fun beyond => ?_⟩
      rw [same, offset enabled beyond, ← hedgeable_iff]
      exact serves.hedgeable beyond enabled
    · refine ⟨by rw [nothing enabled, nothing enabled], fun beyond => ?_⟩
      simpa [nothing enabled] using serves.disabled beyond enabled

theorem sees_fill_opening :
    SeesFill deepCall boughtThree "HG" hgManager 1 ↔
      StoredServes hgManager (deltaWith deepCall boughtThree "HG" (storedDelta deepCall.portfolio "HG" callTick))
        (deltaWith deepCall boughtThree "HG" 1) := by
  refine @sees_fill_iff intrinsicPricing _ _ _ _ _ _ ⟨new_indexed _, ?_, ?_, ?_, ?_⟩
  all_goals decide +kernel

end Corsair.Daemon
