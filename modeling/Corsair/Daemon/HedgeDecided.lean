import Corsair.Daemon.HedgeInFlight
import Corsair.Hedge.Accounting

namespace Corsair.Hedge

-- The side and the quantity an action is to trade.
def HedgeAction.order : HedgeAction → Option (Bool × ℕ)
  | .idle => none
  | .place isBuy qty _ _ _ | .logOnly isBuy qty _ _ => some (isBuy, qty)

theorem HedgeAction.order_trade {action : HedgeAction} {isBuy : Bool} {qty : ℕ}
    (ordered : action.order = some (isBuy, qty)) : action.trade = if isBuy then (qty : ℤ) else -qty := by
  cases action with
  | idle => cases ordered
  | place side n reason pre target =>
    cases ordered
    rfl
  | logOnly side n reason forward =>
    cases ordered
    rfl

end Corsair.Hedge

namespace Corsair.Daemon

open BrokerApi Book Hedge HedgeState

-- The trade of an action is in the books: the quantity has moved by it.
structure Applied (m : HedgeManager) (action : HedgeAction) (next : HedgeManager) : Prop where
  cfg : next.cfg = m.cfg
  moved : next.hedgeQty = m.hedgeQty + action.trade

-- The answer of a decision that trades, with the hedge it leaves.
structure Trading (portfolio : PortfolioState) (m : HedgeManager) (answer : HedgeManager × HedgeAction) : Prop where
  cfg : answer.1.cfg = m.cfg
  order : answer.2.order =
    some (decide (0 < m.targetQty portfolio - m.hedgeQty), (m.targetQty portfolio - m.hedgeQty).natAbs)
  observed : m.cfg.mode = .observe → answer.1.hedgeQty = m.hedgeQty +
    effect (decide (0 < m.targetQty portfolio - m.hedgeQty)) (m.targetQty portfolio - m.hedgeQty).natAbs
  executed : m.cfg.mode = .execute → answer.1.hedgeQty = m.hedgeQty

section Answers

variable {portfolio : PortfolioState} {m next : HedgeManager}

theorem Same.target (same : Same m next) : next.targetQty portfolio = m.targetQty portfolio := by
  rw [HedgeManager.targetQty_eq, HedgeManager.targetQty_eq, same.cfg]

theorem Trading.same {answer : HedgeManager × HedgeAction} (same : Same m next)
    (trading : Trading portfolio next answer) : Trading portfolio m answer := by
  obtain ⟨cfg, order, observed, executed⟩ := trading
  rw [same.target, same.qty] at order
  rw [same.cfg, same.target, same.qty] at observed
  rw [same.cfg, same.qty] at executed
  exact ⟨cfg.trans same.cfg, order, observed, executed⟩

theorem rebalance_level (level : m.hedgeQty = m.targetQty portfolio) (override : Option ℚ) (reason : String)
    (forward : ℚ) : m.rebalance portfolio override reason forward = (m, .idle) := by
  have nothing : m.targetQty portfolio - m.hedgeQty = 0 := by omega
  unfold HedgeManager.rebalance
  simp only [nothing]
  split
  · rfl
  · rfl

theorem rebalance_trading (off : m.hedgeQty ≠ m.targetQty portfolio) (override : Option ℚ) (reason : String)
    (forward : ℚ) : Trading portfolio m (m.rebalance portfolio override reason forward) := by
  have change : m.targetQty portfolio - m.hedgeQty ≠ 0 := by omega
  have some_change : ¬(override = none ∧ (m.targetQty portfolio - m.hedgeQty).natAbs < 1) := by
    rintro ⟨_, small⟩
    omega
  unfold HedgeManager.rebalance
  simp only [if_neg some_change, if_neg change]
  cases mode : m.cfg.mode with
  | observe =>
    refine ⟨rfl, rfl, ?_, ?_⟩
    · intro _
      exact applyFill_qty ..
    · intro other
      rw [mode] at other
      cases other
  | execute =>
    refine ⟨rfl, rfl, ?_, ?_⟩
    · intro other
      rw [mode] at other
      cases other
    · intro _
      rfl

theorem maybeRebalance_beyond (beyond : m.cfg.toleranceDeltas < |portfolio.deltaForProduct m.cfg.product + m.hedgeQty|)
    (reason : String) (forward : ℚ) :
    m.maybeRebalance portfolio reason forward = m.rebalance portfolio none reason forward := by
  unfold HedgeManager.maybeRebalance
  exact if_neg (not_le.mpr beyond)

theorem maybeRebalance_within
    (within : ¬m.cfg.toleranceDeltas < |portfolio.deltaForProduct m.cfg.product + m.hedgeQty|) (reason : String)
    (forward : ℚ) : m.maybeRebalance portfolio reason forward = (m, .idle) := by
  unfold HedgeManager.maybeRebalance
  exact if_pos (not_lt.mp within)

-- A decision that wants to trade is the rebalance of a manager that differs in its clocks at most.
theorem take_wants {d : Decision} (wants : Wants portfolio m d) :
    ∃ next override reason forward, Same m next ∧
      take portfolio m d = next.rebalance portfolio override reason forward := by
  obtain ⟨looks, free | beyond⟩ := wants
  · obtain ⟨forward, rfl⟩ := free
    exact ⟨m, some 0, _, forward, ⟨rfl, rfl, rfl⟩, rfl⟩
  · cases d with
    | onFill =>
      have enabled : m.cfg.rebalanceOnFill = true := looks
      refine ⟨m, none, "fill", 6, ⟨rfl, rfl, rfl⟩, ?_⟩
      rw [take, HedgeManager.rebalanceOnFill, if_pos enabled, maybeRebalance_beyond beyond]
    | periodic forward nowNs =>
      rcases rebalancePeriodic_due portfolio m forward nowNs with ⟨_, next, reason, same, taken⟩ | ⟨early, _⟩
      · refine ⟨next, none, reason, forward, same, taken.trans ?_⟩
        rw [← same.cfg, ← same.qty] at beyond
        exact maybeRebalance_beyond beyond ..
      · exact absurd looks early
    | forceFlat forward => exact ⟨m, some 0, _, forward, ⟨rfl, rfl, rfl⟩, rfl⟩

theorem take_unwanted {d : Decision} (unwanted : ¬Wants portfolio m d) : (take portfolio m d).2 = .idle := by
  cases d with
  | onFill =>
    rw [take, HedgeManager.rebalanceOnFill]
    by_cases enabled : m.cfg.rebalanceOnFill
    · rw [if_pos enabled, maybeRebalance_within]
      intro beyond
      exact unwanted ⟨enabled, .inr beyond⟩
    · rw [if_neg enabled]
  | periodic forward nowNs =>
    rcases rebalancePeriodic_due portfolio m forward nowNs with ⟨due, next, reason, same, taken⟩ | ⟨_, taken⟩
    · rw [take, taken, maybeRebalance_within]
      rw [same.cfg, same.qty]
      intro beyond
      exact unwanted ⟨due, .inr beyond⟩
    · rw [take, taken]
  | forceFlat forward => exact absurd ⟨trivial, .inl ⟨forward, rfl⟩⟩ unwanted

theorem take_level (level : m.hedgeQty = m.targetQty portfolio) (d : Decision) : (take portfolio m d).2 = .idle := by
  by_cases wants : Wants portfolio m d
  · obtain ⟨next, override, reason, forward, same, taken⟩ := take_wants wants
    rw [← same.qty, ← same.target] at level
    rw [taken, rebalance_level level]
  · exact take_unwanted wants

theorem take_trading {d : Decision} (wants : Wants portfolio m d) (off : m.hedgeQty ≠ m.targetQty portfolio) :
    Trading portfolio m (take portfolio m d) := by
  obtain ⟨next, override, reason, forward, same, taken⟩ := take_wants wants
  rw [← same.qty, ← same.target] at off
  rw [taken]
  exact (rebalance_trading off override reason forward).same same

theorem take_idle_iff (d : Decision) :
    (take portfolio m d).2 = .idle ↔ ¬Wants portfolio m d ∨ m.hedgeQty = m.targetQty portfolio := by
  constructor
  · intro idle
    by_contra given
    obtain ⟨wants, off⟩ := not_or.mp given
    have order := (take_trading (not_not.mp wants) off).order
    rw [idle] at order
    cases order
  · rintro (unwanted | level)
    · exact take_unwanted unwanted
    · exact take_level level d

theorem taken_trading {d : Decision} (trades : (take portfolio m d).2 ≠ .idle) :
    Trading portfolio m (take portfolio m d) ∧ m.hedgeQty ≠ m.targetQty portfolio := by
  obtain ⟨wants, off⟩ := not_or.mp ((take_idle_iff d).not.mp trades)
  exact ⟨take_trading (not_not.mp wants) off, off⟩

theorem target_near (fits : FitsI32 (-(roundHalfAway (portfolio.deltaForProduct m.cfg.product)))) :
    |portfolio.deltaForProduct m.cfg.product + m.targetQty portfolio| ≤ 1/2 := by
  have exactly : m.targetQty portfolio = -(roundHalfAway (portfolio.deltaForProduct m.cfg.product)) := by
    rw [HedgeManager.targetQty_eq]
    unfold targetFor saturate
    unfold FitsI32 at fits
    omega
  have near := roundHalfAway_near (portfolio.deltaForProduct m.cfg.product)
  rw [exactly, Int.cast_neg, ← sub_eq_add_neg]
  exact near

theorem Trading.trade {answer : HedgeManager × HedgeAction} (trading : Trading portfolio m answer) :
    answer.2.trade = m.targetQty portfolio - m.hedgeQty := by
  rw [HedgeAction.order_trade trading.order]
  exact HedgeManager.signed_natAbs _

theorem applied_idle {d : Decision} (trades : (take portfolio m d).2 ≠ .idle)
    (applied : Applied m (take portfolio m d).2 next) (again : Decision) : (take portfolio next again).2 = .idle := by
  have moved := applied.moved
  rw [(taken_trading trades).1.trade] at moved
  apply take_level
  rw [HedgeManager.targetQty_eq, applied.cfg, ← HedgeManager.targetQty_eq, moved]
  omega

theorem observed_applied {d : Decision} (change : |m.targetQty portfolio - m.hedgeQty| < 2^31)
    (trades : (take portfolio m d).2 ≠ .idle) (observe : m.cfg.mode = .observe) :
    Applied m (take portfolio m d).2 (take portfolio m d).1 := by
  have trading := (taken_trading trades).1
  have small : (m.targetQty portfolio - m.hedgeQty).natAbs < 2^31 := by
    rw [abs_lt] at change
    omega
  refine ⟨trading.cfg, ?_⟩
  rw [trading.observed observe, effect_small small, HedgeAction.order_trade trading.order]

theorem executed_applied {d : Decision} (change : |m.targetQty portfolio - m.hedgeQty| < 2^31)
    (trades : (take portfolio m d).2 ≠ .idle) (execute : m.cfg.mode = .execute) {fill : Fill}
    (accepted : (take portfolio m d).1.accepts fill)
    (ordered : (take portfolio m d).2.order = some (decide (fill.side = .buy), fill.qty)) :
    Applied m (take portfolio m d).2 ((take portfolio m d).1.applyBrokerFill fill).1 := by
  have trading := (taken_trading trades).1
  have sized := congrArg (Option.map Prod.snd) (trading.order.symm.trans ordered)
  simp only [Option.map_some, Option.some.injEq] at sized
  have small : fill.qty < 2^31 := by
    rw [abs_lt] at change
    omega
  refine ⟨(HedgeManager.applyBrokerFill_kept _ fill).1.trans trading.cfg, ?_⟩
  rw [(HedgeManager.applyBrokerFill_accepted accepted).2, trading.executed execute, HedgeManager.signedQty,
    effect_small small, HedgeAction.order_trade ordered]

theorem wants_onFill (enabled : m.cfg.rebalanceOnFill = true) : ¬Wants portfolio m .onFill ↔
    |portfolio.deltaForProduct m.cfg.product + m.hedgeQty| ≤ m.cfg.toleranceDeltas := by
  simp [Wants, Looks, enabled]

theorem wants_periodic (forward : ℚ) (nowNs : ℕ) : ¬Wants portfolio m (.periodic forward nowNs) ↔
    |portfolio.deltaForProduct m.cfg.product + m.hedgeQty| ≤ m.cfg.toleranceDeltas ∨
      m.priorityDrainUntilNs = 0 ∧ ((nowNs - m.lastPeriodicNs : ℕ) : ℚ) / 10^9 < m.cfg.rebalanceCadenceSec := by
  simp only [Wants, Looks, reduceCtorEq, exists_false, false_or, not_and_or, not_or, not_lt, not_le,
    Nat.le_zero, or_comm]

end Answers

theorem hedge_decided (portfolio : PortfolioState) (m : HedgeManager)
    (fits : FitsI32 (-(roundHalfAway (portfolio.deltaForProduct m.cfg.product))))
    (change : |m.targetQty portfolio - m.hedgeQty| < 2^31) :
    (∀ d, (take portfolio m d).2 ≠ .idle → ∃ isBuy qty, (take portfolio m d).2.order = some (isBuy, qty) ∧ 1 ≤ qty ∧
      m.hedgeQty + (if isBuy then (qty : ℤ) else -qty) = m.targetQty portfolio ∧
      |portfolio.deltaForProduct m.cfg.product + m.targetQty portfolio| ≤ 1/2) ∧
    (m.cfg.rebalanceOnFill = true → ((m.rebalanceOnFill portfolio).2 = .idle ↔
      |portfolio.deltaForProduct m.cfg.product + m.hedgeQty| ≤ m.cfg.toleranceDeltas ∨
        m.hedgeQty = m.targetQty portfolio)) ∧
    (∀ forward nowNs, (m.rebalancePeriodic portfolio forward nowNs).2 = .idle ↔
      (|portfolio.deltaForProduct m.cfg.product + m.hedgeQty| ≤ m.cfg.toleranceDeltas ∨
        m.priorityDrainUntilNs = 0 ∧ ((nowNs - m.lastPeriodicNs : ℕ) : ℚ) / 10^9 < m.cfg.rebalanceCadenceSec) ∨
        m.hedgeQty = m.targetQty portfolio) ∧
    (∀ forward, (m.forceFlat portfolio forward).2 = .idle ↔ m.hedgeQty = m.targetQty portfolio) ∧
    ∀ d, (take portfolio m d).2 ≠ .idle →
      (∀ next, Applied m (take portfolio m d).2 next → ∀ again, (take portfolio next again).2 = .idle) ∧
      (m.cfg.mode = .observe → Applied m (take portfolio m d).2 (take portfolio m d).1) ∧
      (m.cfg.mode = .execute → ∀ fill, (take portfolio m d).1.accepts fill →
        (take portfolio m d).2.order = some (decide (fill.side = .buy), fill.qty) →
        Applied m (take portfolio m d).2 ((take portfolio m d).1.applyBrokerFill fill).1) := by
  refine ⟨?_, ?_, ?_, ?_, ?_⟩
  · intro d trades
    obtain ⟨trading, off⟩ := taken_trading trades
    have reached := trading.trade
    rw [HedgeAction.order_trade trading.order] at reached
    refine ⟨_, _, trading.order, by omega, ?_, target_near fits⟩
    rw [reached]
    omega
  · intro enabled
    rw [← wants_onFill enabled]
    exact take_idle_iff .onFill
  · intro forward nowNs
    rw [← wants_periodic forward nowNs]
    exact take_idle_iff (.periodic forward nowNs)
  · intro forward
    have wants : Wants portfolio m (.forceFlat forward) := ⟨trivial, .inl ⟨forward, rfl⟩⟩
    apply (take_idle_iff (.forceFlat forward)).trans
    simp only [wants, not_true_eq_false, false_or]
  · intro d trades
    refine ⟨?_, ?_, ?_⟩
    · intro next applied again
      exact applied_idle trades applied again
    · intro observe
      exact observed_applied change trades observe
    · intro execute fill accepted ordered
      exact executed_applied change trades execute accepted ordered

-- Short the tie: calls of delta 5/2 are hedged to -3, in one sale.
theorem tie_decided :
    let calls := (PortfolioState.new ∅).replacePositions [⟨"HG", 6, june26, .call, 5, 1/10, 25000, 1/2, 0, 0, 0, 1/10⟩]
    (hgManager.forceFlat calls 6).2.order = some (false, 3) ∧
      ∃ isBuy qty, (hgManager.forceFlat calls 6).2.order = some (isBuy, qty) ∧ 1 ≤ qty ∧
        hgManager.hedgeQty + (if isBuy then (qty : ℤ) else -qty) = hgManager.targetQty calls ∧
        |calls.deltaForProduct "HG" + hgManager.targetQty calls| ≤ 1/2 := by
  intro calls
  refine ⟨by decide +kernel, ?_⟩
  exact (hedge_decided calls hgManager (by decide +kernel) (by decide +kernel)).1 (.forceFlat 6) (by decide +kernel)

end Corsair.Daemon
