import Mathlib.Data.Finset.Basic
import Corsair.Book.Portfolio

namespace Corsair.Hedge

open BrokerApi Book

-- `as i32` of an unsigned quantity wraps.
def wrapI32 (n : ℕ) : ℤ := (n + 2 ^ 31) % 2 ^ 32 - 2 ^ 31

-- state.rs
structure HedgeState where
  hedgeQty : ℤ
  avgEntryF : ℚ
  realizedPnlUsd : ℚ
  deriving DecidableEq

namespace HedgeState

def new : HedgeState := ⟨0, 0, 0⟩

def effect (isBuy : Bool) (qty : ℕ) : ℤ := if isBuy then wrapI32 qty else -wrapI32 qty

def applyFill (s : HedgeState) (isBuy : Bool) (qty : ℕ) (price multiplier : ℚ) : HedgeState :=
  let effect := effect isBuy qty
  let newQty := s.hedgeQty + effect
  let sign : ℚ := if 0 < s.hedgeQty then 1 else -1
  if newQty = 0 then
    { hedgeQty := 0
      avgEntryF := 0
      realizedPnlUsd := s.realizedPnlUsd + sign * (price - s.avgEntryF) * s.hedgeQty.natAbs * multiplier }
  else if (0 ≤ s.hedgeQty ∧ 0 ≤ effect) ∨ (s.hedgeQty ≤ 0 ∧ effect ≤ 0) then
    { s with hedgeQty := newQty, avgEntryF := (s.avgEntryF * s.hedgeQty + price * effect) / newQty }
  else if effect.natAbs < s.hedgeQty.natAbs then
    { s with
      hedgeQty := newQty
      realizedPnlUsd := s.realizedPnlUsd + sign * (price - s.avgEntryF) * effect.natAbs * multiplier }
  else
    { hedgeQty := newQty
      avgEntryF := price
      realizedPnlUsd := s.realizedPnlUsd + sign * (price - s.avgEntryF) * s.hedgeQty.natAbs * multiplier }

def mtmUsd (s : HedgeState) (currentF multiplier : ℚ) : ℚ :=
  if s.hedgeQty = 0 ∨ currentF ≤ 0 then 0 else (currentF - s.avgEntryF) * s.hedgeQty * multiplier

def replace (s : HedgeState) (qty : ℤ) (avgF : ℚ) : HedgeState := { s with hedgeQty := qty, avgEntryF := avgF }

@[simp] theorem applyFill_qty (s : HedgeState) (isBuy : Bool) (qty : ℕ) (price multiplier : ℚ) :
    (s.applyFill isBuy qty price multiplier).hedgeQty = s.hedgeQty + effect isBuy qty := by
  unfold applyFill
  simp only
  split
  · rename_i flat
    exact flat.symm
  · split
    · rfl
    · split <;> rfl

end HedgeState

-- manager.rs
inductive HedgeMode where | observe | execute
  deriving DecidableEq, Repr

structure HedgeConfig where
  product : String
  multiplier : ℚ
  mode : HedgeMode
  toleranceDeltas : ℚ
  rebalanceOnFill : Bool
  rebalanceCadenceSec : ℚ
  includeInDailyPnl : Bool
  flattenOnHaltEnabled : Bool
  iocTickOffset : ℤ
  hedgeTickSize : ℚ
  deriving DecidableEq

-- config/runtime_v3.yaml
def HedgeConfig.hg : HedgeConfig where
  product := "HG"
  multiplier := 25000
  mode := .execute
  toleranceDeltas := 1/2
  rebalanceOnFill := true
  rebalanceCadenceSec := 30
  includeInDailyPnl := true
  flattenOnHaltEnabled := true
  iocTickOffset := 2
  hedgeTickSize := 1/2000

inductive HedgeAction where
  | idle
  | place (isBuy : Bool) (qty : ℕ) (reason : String) (effectiveDeltaPre : ℚ) (targetQty : ℤ)
  | logOnly (isBuy : Bool) (qty : ℕ) (reason : String) (forward : ℚ)
  deriving DecidableEq

structure HedgeManager where
  cfg : HedgeConfig
  state : HedgeState
  hedgeContract : Option Contract
  lastPeriodicNs : ℕ
  priorityDrainUntilNs : ℕ
  processedExecIds : Finset String
  processedExecIdsOrder : List String
  deriving DecidableEq

def processedExecIdsMax : ℕ := 10000

namespace HedgeManager

def new (cfg : HedgeConfig) : HedgeManager where
  cfg
  state := .new
  hedgeContract := none
  lastPeriodicNs := 0
  priorityDrainUntilNs := 0
  processedExecIds := ∅
  processedExecIdsOrder := []

def hedgeQty (m : HedgeManager) : ℤ := m.state.hedgeQty

def mtmUsd (m : HedgeManager) (currentF : ℚ) : ℚ := m.state.mtmUsd currentF m.cfg.multiplier

def setHedgeContract (m : HedgeManager) (c : Contract) : HedgeManager := { m with hedgeContract := some c }

def targetQty (m : HedgeManager) (portfolio : PortfolioState) : ℤ :=
  let effective := portfolio.deltaForProduct m.cfg.product + m.hedgeQty
  saturate (-2^31) (2^31 - 1) (-(roundHalfAway (effective - m.hedgeQty)))

-- `toleranceOverride` given bypasses the test on the change, for force_flat.
def rebalance (m : HedgeManager) (portfolio : PortfolioState) (toleranceOverride : Option ℚ) (reason : String)
    (forward : ℚ) : HedgeManager × HedgeAction :=
  let effective := portfolio.deltaForProduct m.cfg.product + m.hedgeQty
  let target := m.targetQty portfolio
  let desiredChange := target - m.hedgeQty
  if toleranceOverride = none ∧ desiredChange.natAbs < 1 then (m, .idle)
  else if desiredChange = 0 then (m, .idle)
  else
    let isBuy := decide (0 < desiredChange)
    let qty := desiredChange.natAbs
    match m.cfg.mode with
    | .observe =>
      ({ m with state := m.state.applyFill isBuy qty forward m.cfg.multiplier }, .logOnly isBuy qty reason forward)
    | .execute => (m, .place isBuy qty reason effective target)

def maybeRebalance (m : HedgeManager) (portfolio : PortfolioState) (reason : String) (forward : ℚ) :
    HedgeManager × HedgeAction :=
  let effective := portfolio.deltaForProduct m.cfg.product + m.hedgeQty
  if |effective| ≤ m.cfg.toleranceDeltas then (m, .idle)
  else m.rebalance portfolio none reason forward

def rebalanceOnFill (m : HedgeManager) (portfolio : PortfolioState) : HedgeManager × HedgeAction :=
  if m.cfg.rebalanceOnFill then m.maybeRebalance portfolio "fill" 6 else (m, .idle)

def rebalancePeriodic (m : HedgeManager) (portfolio : PortfolioState) (forward : ℚ) (nowNs : ℕ) :
    HedgeManager × HedgeAction :=
  if 0 < m.priorityDrainUntilNs ∧ nowNs < m.priorityDrainUntilNs then
    { m with lastPeriodicNs := nowNs }.maybeRebalance portfolio "priority_drain_periodic" forward
  else if 0 < m.priorityDrainUntilNs ∧ m.priorityDrainUntilNs ≤ nowNs then
    { m with priorityDrainUntilNs := 0, lastPeriodicNs := nowNs }.maybeRebalance portfolio
      "priority_drain_clear" forward
  else if ((nowNs - m.lastPeriodicNs : ℕ) : ℚ) / 10^9 < m.cfg.rebalanceCadenceSec then (m, .idle)
  else { m with lastPeriodicNs := nowNs }.maybeRebalance portfolio "periodic" forward

def forceFlat (m : HedgeManager) (portfolio : PortfolioState) (forward : ℚ) : HedgeManager × HedgeAction :=
  m.rebalance portfolio (some 0) "delta_kill_force_flat" forward

def flattenOnHalt (m : HedgeManager) (forward : ℚ) : HedgeAction :=
  if ¬m.cfg.flattenOnHaltEnabled then .idle
  else if m.hedgeQty = 0 then .idle
  else
    let closeQty := m.hedgeQty.natAbs
    let isBuy := decide (m.hedgeQty < 0)
    match m.cfg.mode with
    | .observe => .logOnly isBuy closeQty "halt_flatten" forward
    | .execute => .place isBuy closeQty "halt_flatten" m.hedgeQty 0

def evictOldest (m : HedgeManager) : HedgeManager :=
  if processedExecIdsMax ≤ m.processedExecIdsOrder.length then
    match m.processedExecIdsOrder with
    | old :: rest => { m with processedExecIds := m.processedExecIds.erase old, processedExecIdsOrder := rest }
    | [] => m
  else m

def recordExecId (m : HedgeManager) (execId : String) : HedgeManager :=
  { m with
    processedExecIds := insert execId m.processedExecIds
    processedExecIdsOrder := m.processedExecIdsOrder ++ [execId] }

-- The fill is one of the resolved hedge contract, in a mode that books fills.
def hedges (m : HedgeManager) (instrument : InstrumentId) : Bool :=
  m.cfg.mode = .execute ∧ m.hedgeContract.any (·.instrumentId = instrument)

def accepts (m : HedgeManager) (fill : Fill) : Bool :=
  m.hedges fill.instrumentId ∧ fill.execId ≠ "" ∧ fill.execId ∉ m.processedExecIds

def applyBrokerFill (m : HedgeManager) (fill : Fill) : HedgeManager × Bool :=
  if m.accepts fill then
    let recorded := m.evictOldest.recordExecId fill.execId
    ({ recorded with
        state := m.state.applyFill (fill.side = .buy) fill.qty fill.price.exact m.cfg.multiplier }, true)
  else (m, false)

def reconcileWithPosition (m : HedgeManager) (brokerQty : ℤ) (brokerAvgCost : ℚ) : HedgeManager × Bool :=
  if brokerQty = m.hedgeQty then (m, false)
  else ({ m with state := m.state.replace brokerQty brokerAvgCost }, true)

def signedQty (fill : Fill) : ℤ := HedgeState.effect (fill.side = .buy) fill.qty

theorem applyBrokerFill_accepted {m : HedgeManager} {fill : Fill} (accepted : m.accepts fill) :
    (m.applyBrokerFill fill).2 = true ∧ (m.applyBrokerFill fill).1.hedgeQty = m.hedgeQty + signedQty fill := by
  unfold applyBrokerFill
  rw [if_pos accepted]
  exact ⟨rfl, HedgeState.applyFill_qty ..⟩

theorem applyBrokerFill_refused {m : HedgeManager} {fill : Fill} (refused : ¬m.accepts fill) :
    m.applyBrokerFill fill = (m, false) := by
  unfold applyBrokerFill
  rw [if_neg refused]

theorem evictOldest_kept (m : HedgeManager) :
    m.evictOldest.cfg = m.cfg ∧ m.evictOldest.hedgeContract = m.hedgeContract ∧
      m.evictOldest.processedExecIds ⊆ m.processedExecIds := by
  unfold evictOldest
  split
  · split
    · exact ⟨rfl, rfl, Finset.erase_subset _ _⟩
    · exact ⟨rfl, rfl, Finset.Subset.refl _⟩
  · exact ⟨rfl, rfl, Finset.Subset.refl _⟩

theorem applyBrokerFill_kept (m : HedgeManager) (fill : Fill) :
    (m.applyBrokerFill fill).1.cfg = m.cfg ∧ (m.applyBrokerFill fill).1.hedgeContract = m.hedgeContract ∧
      (m.applyBrokerFill fill).1.processedExecIds ⊆ insert fill.execId m.processedExecIds := by
  obtain ⟨cfg, contract, ids⟩ := evictOldest_kept m
  unfold applyBrokerFill
  split
  · exact ⟨cfg, contract, Finset.insert_subset_insert _ ids⟩
  · exact ⟨rfl, rfl, Finset.subset_insert _ _⟩

theorem reconcile_kept (m : HedgeManager) (qty : ℤ) (avg : ℚ) :
    (m.reconcileWithPosition qty avg).1.cfg = m.cfg ∧
      (m.reconcileWithPosition qty avg).1.hedgeContract = m.hedgeContract ∧
      (m.reconcileWithPosition qty avg).1.processedExecIds = m.processedExecIds := by
  unfold reconcileWithPosition
  split
  · exact ⟨rfl, rfl, rfl⟩
  · exact ⟨rfl, rfl, rfl⟩

@[simp] theorem reconcile_qty (m : HedgeManager) (qty : ℤ) (avg : ℚ) :
    (m.reconcileWithPosition qty avg).1.hedgeQty = qty := by
  unfold reconcileWithPosition
  split
  · rename_i equal
    exact equal.symm
  · rfl

end HedgeManager

-- fanout.rs
structure HedgeFanout where
  managers : List HedgeManager
  deriving DecidableEq

namespace HedgeFanout

def forProduct (h : HedgeFanout) (product : String) : Option HedgeManager :=
  h.managers.find? (·.cfg.product = product)

-- `for_product_mut`: the first manager of the product is written in place.
def update (product : String) (f : HedgeManager → HedgeManager) : List HedgeManager → List HedgeManager
  | [] => []
  | m :: rest => if m.cfg.product = product then f m :: rest else m :: update product f rest

def forProductMut (h : HedgeFanout) (product : String) (f : HedgeManager → HedgeManager) : HedgeFanout :=
  ⟨update product f h.managers⟩

def hedgeQtyForProduct (h : HedgeFanout) (product : String) : ℤ :=
  ((h.forProduct product).map (·.hedgeQty)).getD 0

end HedgeFanout

end Corsair.Hedge
