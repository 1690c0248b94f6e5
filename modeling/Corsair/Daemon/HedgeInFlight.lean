import Mathlib.Algebra.BigOperators.Group.List.Basic
import Corsair.Hedge.Target
import Corsair.Daemon.HedgeReconcile

namespace Corsair.Daemon

open BrokerApi Book Hedge Machine

inductive Decision where
  | onFill
  | periodic (forward : ℚ) (nowNs : ℕ)
  | forceFlat (forward : ℚ)

-- A hedge order at the exchange, with what it has still to fill.
structure HedgeOrder where
  isBuy : Bool
  remaining : ℕ
  deriving DecidableEq

structure Hedging where
  manager : HedgeManager
  working : List HedgeOrder

inductive HedgingEvent where
  | decision (d : Decision)
  | report (order : ℕ) (fill : Fill)

def take (portfolio : PortfolioState) (m : HedgeManager) : Decision → HedgeManager × HedgeAction
  | .onFill => m.rebalanceOnFill portfolio
  | .periodic forward nowNs => m.rebalancePeriodic portfolio forward nowNs
  | .forceFlat forward => m.forceFlat portfolio forward

def placed : HedgeAction → List HedgeOrder
  | .place isBuy qty _ _ _ => [⟨isBuy, qty⟩]
  | .idle | .logOnly .. => []

def HedgeOrder.filledBy (fill : Fill) (o : HedgeOrder) : HedgeOrder := { o with remaining := o.remaining - fill.qty }

-- The output of a step is the orders it placed.
def hedgingStep (portfolio : PortfolioState) (s : Hedging) : HedgingEvent → Hedging × List HedgeOrder
  | .decision d =>
    let (manager, action) := take portfolio s.manager d
    (⟨manager, s.working ++ placed action⟩, placed action)
  | .report order fill =>
    (⟨(s.manager.applyBrokerFill fill).1, s.working.modify order (HedgeOrder.filledBy fill)⟩, [])

def HedgeOrder.signed (o : HedgeOrder) : ℤ := if o.isBuy then o.remaining else -o.remaining

def inFlight (orders : List HedgeOrder) : ℤ := (orders.map (·.signed)).sum

-- What the hedge comes to once every order has filled.
def Hedging.position (s : Hedging) : ℤ := s.manager.hedgeQty + inFlight s.working

def InBounds (portfolio : PortfolioState) (cfg : HedgeConfig) (hedge : ℤ) : Prop :=
  |portfolio.deltaForProduct cfg.product + hedge| ≤ max (1/2) cfg.toleranceDeltas

def Balanced (portfolio : PortfolioState) (s : Hedging) : Prop :=
  InBounds portfolio s.manager.cfg s.manager.hedgeQty

-- An execution of one of the orders: on its side, of no more than it has left, in
-- the hedge contract, and with an id of its own.
structure Reported (contract : Contract) (s : Hedging) (order : ℕ) (fill : Fill) : Prop where
  ofOrder : ∃ o, s.working[order]? = some o ∧ decide (fill.side = .buy) = o.isBuy ∧ fill.qty ≤ o.remaining
  instrument : fill.instrumentId = contract.instrumentId
  named : fill.execId ≠ ""
  unseen : fill.execId ∉ s.manager.processedExecIds

def Lawful (contract : Contract) (s : Hedging) : HedgingEvent → Prop
  | .decision _ => True
  | .report order fill => Reported contract s order fill

-- The decision gets as far as comparing the delta with anything.
def Looks (m : HedgeManager) : Decision → Prop
  | .onFill => m.cfg.rebalanceOnFill = true
  | .periodic _ nowNs =>
    0 < m.priorityDrainUntilNs ∨ m.cfg.rebalanceCadenceSec ≤ ((nowNs - m.lastPeriodicNs : ℕ) : ℚ) / 10^9
  | .forceFlat _ => True

def Wants (portfolio : PortfolioState) (m : HedgeManager) (d : Decision) : Prop :=
  Looks m d ∧ ((∃ forward, d = .forceFlat forward) ∨
    m.cfg.toleranceDeltas < |portfolio.deltaForProduct m.cfg.product + m.hedgeQty|)

-- A decision that trades finds nothing in flight, or orders that cancel out.
def Unstacked (portfolio : PortfolioState) (s : Hedging) : HedgingEvent → Prop
  | .decision d =>
    let target := targetFor (portfolio.deltaForProduct s.manager.cfg.product)
    Wants portfolio s.manager d → target ≠ s.manager.hedgeQty →
      inFlight s.working = 0 ∧ |target - s.manager.hedgeQty| < 2^31
  | .report _ _ => True

-- One of the decisions of the run looks.
def Decided (portfolio : PortfolioState) (s : Hedging) (events : List HedgingEvent) : Prop :=
  ∃ before d later, events = before ++ .decision d :: later ∧ Looks (after (hedgingStep portfolio) s before).manager d

structure Executing (m : HedgeManager) (contract : Contract) : Prop where
  execute : m.cfg.mode = .execute
  resolved : m.hedgeContract = some contract

section Orders

theorem inFlight_append (xs ys : List HedgeOrder) : inFlight (xs ++ ys) = inFlight xs + inFlight ys := by
  unfold inFlight
  rw [List.map_append, List.sum_append]

theorem inFlight_modify {orders : List HedgeOrder} {order : ℕ} {o : HedgeOrder} (held : orders[order]? = some o)
    (f : HedgeOrder → HedgeOrder) :
    inFlight (orders.modify order f) = inFlight orders - o.signed + (f o).signed := by
  induction orders generalizing order with
  | nil => cases held
  | cons first rest next =>
    cases order with
    | zero =>
      cases held
      simp only [inFlight, List.modify_zero_cons, List.map_cons, List.sum_cons]
      omega
    | succ n =>
      have later := next held
      simp only [inFlight, List.modify_succ_cons, List.map_cons, List.sum_cons] at later ⊢
      omega

theorem inFlight_filled {orders : List HedgeOrder} (filled : ∀ o ∈ orders, o.remaining = 0) : inFlight orders = 0 := by
  induction orders with
  | nil => rfl
  | cons first rest next =>
    have zero := filled first List.mem_cons_self
    have later := next fun o member => filled o (List.mem_cons_of_mem _ member)
    have flat : first.signed = 0 := by simp [HedgeOrder.signed, zero]
    simp only [inFlight, List.map_cons, List.sum_cons] at later ⊢
    rw [flat, later, add_zero]

theorem mem_modify {orders : List HedgeOrder} {order : ℕ} {f : HedgeOrder → HedgeOrder} {o : HedgeOrder}
    (member : o ∈ orders.modify order f) : ∃ before ∈ orders, o = before ∨ o = f before := by
  obtain ⟨i, bound, rfl⟩ := List.mem_iff_getElem.mp member
  rw [List.length_modify] at bound
  refine ⟨orders[i], List.getElem_mem bound, ?_⟩
  rw [List.getElem_modify]
  split
  · exact .inr rfl
  · exact .inl rfl

theorem effect_small {qty : ℕ} (small : qty < 2^31) (isBuy : Bool) :
    HedgeState.effect isBuy qty = if isBuy then (qty : ℤ) else -qty := by
  have same : wrapI32 qty = qty := by
    unfold wrapI32
    omega
  unfold HedgeState.effect
  rw [same]

end Orders

section Decisions

variable (portfolio : PortfolioState) {m : HedgeManager}

-- Everything of the manager but its two clocks.
structure Same (m next : HedgeManager) : Prop where
  cfg : next.cfg = m.cfg
  contract : next.hedgeContract = m.hedgeContract
  qty : next.hedgeQty = m.hedgeQty

theorem rebalance_executes (execute : m.cfg.mode = .execute) (override : Option ℚ) (reason : String) (forward : ℚ) :
    (m.rebalance portfolio override reason forward).1 = m ∧
      inFlight (placed (m.rebalance portfolio override reason forward).2) =
        (m.rebalance portfolio override reason forward).2.trade := by
  unfold HedgeManager.rebalance
  simp only [execute]
  split
  · exact ⟨rfl, rfl⟩
  · split
    · exact ⟨rfl, rfl⟩
    · exact ⟨rfl, by simp [placed, inFlight, HedgeOrder.signed, HedgeAction.trade]⟩

theorem maybeRebalance_executes (execute : m.cfg.mode = .execute) (reason : String) (forward : ℚ) :
    (m.maybeRebalance portfolio reason forward).1 = m ∧
      inFlight (placed (m.maybeRebalance portfolio reason forward).2) =
        (m.maybeRebalance portfolio reason forward).2.trade := by
  unfold HedgeManager.maybeRebalance
  simp only
  split
  · exact ⟨rfl, rfl⟩
  · exact rebalance_executes portfolio execute ..

-- A periodic call that is due decides as the others do, with its clocks moved.
theorem rebalancePeriodic_due (m : HedgeManager) (forward : ℚ) (nowNs : ℕ) :
    (Looks m (.periodic forward nowNs) ∧ ∃ next reason, Same m next ∧
      m.rebalancePeriodic portfolio forward nowNs = next.maybeRebalance portfolio reason forward) ∨
    (¬Looks m (.periodic forward nowNs) ∧ m.rebalancePeriodic portfolio forward nowNs = (m, .idle)) := by
  unfold HedgeManager.rebalancePeriodic
  split
  · rename_i draining
    exact .inl ⟨.inl draining.1, { m with lastPeriodicNs := nowNs }, _, ⟨rfl, rfl, rfl⟩, rfl⟩
  · split
    · rename_i drained
      exact .inl ⟨.inl drained.1, { m with priorityDrainUntilNs := 0, lastPeriodicNs := nowNs }, _,
        ⟨rfl, rfl, rfl⟩, rfl⟩
    · rename_i active cleared
      have idle : ¬0 < m.priorityDrainUntilNs := by omega
      split
      · rename_i early
        refine .inr ⟨?_, rfl⟩
        rintro (drains | due)
        · exact idle drains
        · exact absurd early due.not_gt
      · rename_i due
        exact .inl ⟨.inr (not_lt.mp due), { m with lastPeriodicNs := nowNs }, _, ⟨rfl, rfl, rfl⟩, rfl⟩

open Classical in
theorem take_trades (execute : m.cfg.mode = .execute) (d : Decision) :
    Same m (take portfolio m d).1 ∧
      inFlight (placed (take portfolio m d).2) =
        if Wants portfolio m d then targetFor (portfolio.deltaForProduct m.cfg.product) - m.hedgeQty else 0 := by
  cases d with
  | onFill =>
    simp only [take, HedgeManager.rebalanceOnFill, Wants, Looks, reduceCtorEq, exists_false, false_or]
    by_cases enabled : m.cfg.rebalanceOnFill
    · obtain ⟨kept, trade⟩ := maybeRebalance_executes portfolio execute "fill" 6
      simp only [enabled, if_true, true_and]
      rw [kept, trade, HedgeManager.maybeRebalance_trade]
      exact ⟨⟨rfl, rfl, rfl⟩, rfl⟩
    · simp only [enabled, Bool.false_eq_true, if_false, false_and]
      exact ⟨⟨rfl, rfl, rfl⟩, rfl⟩
  | periodic forward nowNs =>
    simp only [take, Wants, reduceCtorEq, exists_false, false_or]
    rcases rebalancePeriodic_due portfolio m forward nowNs with ⟨due, next, reason, same, taken⟩ | ⟨early, taken⟩
    · have executes : next.cfg.mode = .execute := same.cfg ▸ execute
      obtain ⟨kept, trade⟩ := maybeRebalance_executes portfolio executes reason forward
      rw [taken, kept, trade, HedgeManager.maybeRebalance_trade, same.cfg, same.qty]
      simp only [due, true_and]
      exact ⟨same, trivial⟩
    · rw [taken]
      simp only [early, false_and, if_false]
      exact ⟨⟨rfl, rfl, rfl⟩, rfl⟩
  | forceFlat forward =>
    obtain ⟨kept, trade⟩ := rebalance_executes portfolio execute (some 0) "delta_kill_force_flat" forward
    have wants : Wants portfolio m (.forceFlat forward) := ⟨trivial, .inl ⟨forward, rfl⟩⟩
    simp only [take, HedgeManager.forceFlat]
    rw [if_pos wants, kept, trade, HedgeManager.rebalance_trade]
    exact ⟨⟨rfl, rfl, rfl⟩, rfl⟩

end Decisions

section Run

variable {portfolio : PortfolioState} {contract : Contract}

def AllFilled (s : Hedging) : Prop := ∀ o ∈ s.working, o.remaining = 0

-- What the hedge comes to is in bounds already, or nothing is in flight.
structure Hedges (portfolio : PortfolioState) (contract : Contract) (cfg : HedgeConfig) (s : Hedging) : Prop where
  executing : Executing s.manager contract
  configured : s.manager.cfg = cfg
  small : ∀ o ∈ s.working, o.remaining < 2^31
  bound : InBounds portfolio cfg s.position ∨ AllFilled s

theorem AllFilled.position {s : Hedging} (filled : AllFilled s) : s.position = s.manager.hedgeQty := by
  unfold Hedging.position
  rw [inFlight_filled filled, add_zero]

theorem target_inBounds {cfg : HedgeConfig} (fits : |roundHalfAway (portfolio.deltaForProduct cfg.product)| < 2^31) :
    InBounds portfolio cfg (targetFor (portfolio.deltaForProduct cfg.product)) :=
  (targetFor_near fits).trans (le_max_left _ _)

theorem quiet_inBounds {m : HedgeManager} {d : Decision} (looks : Looks m d) (quiet : ¬Wants portfolio m d) :
    InBounds portfolio m.cfg m.hedgeQty := by
  have within : ¬m.cfg.toleranceDeltas < |portfolio.deltaForProduct m.cfg.product + m.hedgeQty| :=
    fun beyond => quiet ⟨looks, .inr beyond⟩
  exact (not_lt.mp within).trans (le_max_right _ _)

theorem placed_remaining {action : HedgeAction} {o : HedgeOrder} (member : o ∈ placed action) :
    o.remaining = (inFlight (placed action)).natAbs := by
  cases action with
  | place isBuy qty reason pre target =>
    rw [List.mem_singleton.mp member]
    simp only [placed, inFlight, List.map_cons, List.map_nil, List.sum_cons, List.sum_nil, HedgeOrder.signed]
    split <;> omega
  | idle => cases member
  | logOnly isBuy qty reason forward => cases member

theorem decision_position {s : Hedging} {d : Decision} (same : Same s.manager (take portfolio s.manager d).1) :
    (hedgingStep portfolio s (.decision d)).1.position =
      s.position + inFlight (placed (take portfolio s.manager d).2) := by
  simp only [hedgingStep, Hedging.position, same.qty, inFlight_append]
  omega

-- The decision is taken as it would be with the hedge where the orders will take it.
theorem decision_inBounds {cfg : HedgeConfig} {s : Hedging} {d : Decision}
    (fits : |roundHalfAway (portfolio.deltaForProduct cfg.product)| < 2^31) (held : Hedges portfolio contract cfg s)
    (alone : Unstacked portfolio s (.decision d)) (looks : Looks s.manager d) :
    InBounds portfolio cfg (hedgingStep portfolio s (.decision d)).1.position := by
  obtain ⟨same, trade⟩ := take_trades portfolio held.executing.execute d
  have target := target_inBounds fits
  rw [decision_position same, trade]
  unfold Unstacked at alone
  rw [held.configured] at alone ⊢
  by_cases wants : Wants portfolio s.manager d
  · rw [if_pos wants]
    by_cases equal : targetFor (portfolio.deltaForProduct cfg.product) = s.manager.hedgeQty
    · rw [equal, sub_self, add_zero]
      rcases held.bound with bound | filled
      · exact bound
      · rwa [filled.position, ← equal]
    · have nothing := (alone wants equal).1
      have reached : s.position + (targetFor (portfolio.deltaForProduct cfg.product) - s.manager.hedgeQty) =
          targetFor (portfolio.deltaForProduct cfg.product) := by
        unfold Hedging.position
        omega
      rwa [reached]
  · rw [if_neg wants, add_zero]
    rcases held.bound with bound | filled
    · exact bound
    · rw [filled.position, ← held.configured]
      exact quiet_inBounds looks wants

theorem idle_places_nothing {s : Hedging} {d : Decision} (executing : Executing s.manager contract)
    (idle : ¬Wants portfolio s.manager d) : ∀ o ∈ placed (take portfolio s.manager d).2, o.remaining = 0 := by
  intro o member
  rw [placed_remaining member, (take_trades portfolio executing.execute d).2, if_neg idle]
  rfl

theorem placed_small {s : Hedging} {d : Decision} (executing : Executing s.manager contract)
    (alone : Unstacked portfolio s (.decision d)) :
    ∀ o ∈ placed (take portfolio s.manager d).2, o.remaining < 2^31 := by
  intro o member
  have trade := (take_trades portfolio executing.execute d).2
  rw [placed_remaining member, trade]
  split
  · rename_i wants
    by_cases equal : targetFor (portfolio.deltaForProduct s.manager.cfg.product) = s.manager.hedgeQty
    · rw [equal, sub_self]
      decide
    · have small := (alone wants equal).2
      rw [Int.abs_eq_natAbs] at small
      omega
  · decide

theorem decision_hedges {cfg : HedgeConfig} {s : Hedging} {d : Decision}
    (fits : |roundHalfAway (portfolio.deltaForProduct cfg.product)| < 2^31) (held : Hedges portfolio contract cfg s)
    (alone : Unstacked portfolio s (.decision d)) :
    Hedges portfolio contract cfg (hedgingStep portfolio s (.decision d)).1 := by
  obtain ⟨same, trade⟩ := take_trades portfolio held.executing.execute d
  refine ⟨⟨?_, ?_⟩, same.cfg.trans held.configured, ?_, ?_⟩
  · exact same.cfg ▸ held.executing.execute
  · exact same.contract.trans held.executing.resolved
  · intro o member
    rcases List.mem_append.mp member with before | new
    · exact held.small o before
    · exact placed_small held.executing alone o new
  · by_cases looks : Looks s.manager d
    · exact .inl (decision_inBounds fits held alone looks)
    · have idle : ¬Wants portfolio s.manager d := fun wants => looks wants.1
      rcases held.bound with bound | filled
      · rw [decision_position same, trade, if_neg idle, add_zero]
        exact .inl bound
      · refine .inr fun o member => ?_
        rcases List.mem_append.mp member with before | new
        · exact filled o before
        · exact idle_places_nothing held.executing idle o new

theorem report_position {s : Hedging} {order : ℕ} {fill : Fill} (executing : Executing s.manager contract)
    (small : ∀ o ∈ s.working, o.remaining < 2^31) (reported : Reported contract s order fill) :
    (hedgingStep portfolio s (.report order fill)).1.position = s.position := by
  obtain ⟨o, held, side, partly⟩ := reported.ofOrder
  have bounded := small o (List.mem_of_getElem? held)
  have accepted : s.manager.accepts fill := by
    simp [HedgeManager.accepts, HedgeManager.hedges, executing.execute, executing.resolved, reported.instrument,
      reported.named, reported.unseen]
  have left : (o.remaining - fill.qty : ℕ) = (o.remaining : ℤ) - fill.qty := by omega
  simp only [hedgingStep, Hedging.position, inFlight_modify held, (HedgeManager.applyBrokerFill_accepted accepted).2,
    HedgeManager.signedQty, side, effect_small (partly.trans_lt bounded), HedgeOrder.signed, HedgeOrder.filledBy, left]
  split <;> omega

theorem report_hedges {cfg : HedgeConfig} {s : Hedging} {order : ℕ} {fill : Fill}
    (held : Hedges portfolio contract cfg s) (reported : Reported contract s order fill) :
    Hedges portfolio contract cfg (hedgingStep portfolio s (.report order fill)).1 := by
  obtain ⟨same, resolved, -⟩ := s.manager.applyBrokerFill_kept fill
  have shrinks : ∀ o ∈ s.working.modify order (HedgeOrder.filledBy fill),
      ∃ before ∈ s.working, o.remaining ≤ before.remaining := by
    intro o member
    obtain ⟨before, own, rfl | rfl⟩ := mem_modify member
    · exact ⟨_, own, le_refl _⟩
    · exact ⟨before, own, Nat.sub_le _ _⟩
  refine ⟨⟨?_, ?_⟩, same.trans held.configured, ?_, ?_⟩
  · exact same ▸ held.executing.execute
  · exact resolved.trans held.executing.resolved
  · intro o member
    obtain ⟨before, own, less⟩ := shrinks o member
    exact less.trans_lt (held.small before own)
  · rcases held.bound with bound | filled
    · rw [report_position held.executing held.small reported]
      exact .inl bound
    · refine .inr fun o member => ?_
      obtain ⟨before, own, less⟩ := shrinks o member
      rw [filled before own] at less
      exact Nat.le_zero.mp less

theorem step_hedges {cfg : HedgeConfig} (fits : |roundHalfAway (portfolio.deltaForProduct cfg.product)| < 2^31)
    (s : Hedging) (e : HedgingEvent) (ok : Lawful contract s e ∧ Unstacked portfolio s e)
    (held : Hedges portfolio contract cfg s) : Hedges portfolio contract cfg (hedgingStep portfolio s e).1 := by
  cases e with
  | decision d => exact decision_hedges fits held ok.2
  | report order fill => exact report_hedges held ok.1

theorem step_inBounds {cfg : HedgeConfig} (fits : |roundHalfAway (portfolio.deltaForProduct cfg.product)| < 2^31)
    (s : Hedging) (e : HedgingEvent) (ok : Lawful contract s e ∧ Unstacked portfolio s e)
    (held : Hedges portfolio contract cfg s ∧ InBounds portfolio cfg s.position) :
    Hedges portfolio contract cfg (hedgingStep portfolio s e).1 ∧
      InBounds portfolio cfg (hedgingStep portfolio s e).1.position := by
  refine ⟨step_hedges fits s e ok held.1, ?_⟩
  cases e with
  | decision d =>
    by_cases looks : Looks s.manager d
    · exact decision_inBounds fits held.1 ok.2 looks
    · obtain ⟨same, trade⟩ := take_trades portfolio held.1.executing.execute d
      rw [decision_position same, trade, if_neg fun wants => looks wants.1, add_zero]
      exact held.2
  | report order fill =>
    rw [report_position held.1.executing held.1.small ok.1]
    exact held.2

theorem settles {cfg : HedgeConfig} (fits : |roundHalfAway (portfolio.deltaForProduct cfg.product)| < 2^31)
    {s : Hedging} (held : Hedges portfolio contract cfg s) {events : List HedgingEvent}
    (along : Along (hedgingStep portfolio) (fun s e => Lawful contract s e ∧ Unstacked portfolio s e) s events)
    (decided : InBounds portfolio cfg s.position ∨ Decided portfolio s events) :
    Hedges portfolio contract cfg (after (hedgingStep portfolio) s events) ∧
      InBounds portfolio cfg (after (hedgingStep portfolio) s events).position := by
  rcases decided with bound | ⟨before, d, later, split, looks⟩
  · exact reached _ (step_inBounds fits) ⟨held, bound⟩ along
  · rw [split, along_append] at along
    obtain ⟨early, now, late⟩ := along
    have here := reached _ (step_hedges fits) held early
    have bound := decision_inBounds fits here now.2 looks
    rw [split, after_append]
    exact reached _ (step_inBounds fits) ⟨decision_hedges fits here now.2, bound⟩ late

end Run

section Stacked

-- Five calls of delta one.
def longCalls : PortfolioState :=
  (PortfolioState.new ∅).replacePositions [⟨"HG", 6, june26, .call, 5, 1/10, 25000, 1, 0, 0, 0, 1/10⟩]

def soldFive (execId : String) : Fill := ⟨execId, 8, 77, .sell, 5, .finite 6, 0, none⟩

-- Both fills are decided on before the first hedge order has filled.
def stacked : List HedgingEvent :=
  [.decision .onFill, .decision .onFill, .report 0 (soldFive "h1"), .report 1 (soldFive "h2")]

end Stacked

theorem hedge_orders_stack :
    let start : Hedging := ⟨hgManager, []⟩
    let last := after (hedgingStep longCalls) start stacked
    Executing hgManager hgFuture ∧ Along (hedgingStep longCalls) (Lawful hgFuture) start stacked ∧
      Decided longCalls start stacked ∧ AllFilled last ∧ ¬Balanced longCalls last := by
  refine ⟨⟨rfl, rfl⟩, ⟨trivial, trivial, ?_, ?_, trivial⟩, ⟨[], .onFill, _, rfl, rfl⟩, ?_, ?_⟩
  · exact ⟨⟨⟨false, 5⟩, by decide +kernel, rfl, le_refl _⟩, rfl, by decide, by decide +kernel⟩
  · exact ⟨⟨⟨false, 5⟩, by decide +kernel, rfl, le_refl _⟩, rfl, by decide, by decide +kernel⟩
  · unfold AllFilled
    decide +kernel
  · unfold Balanced InBounds
    decide +kernel

theorem hedge_settles_unstacked {portfolio : PortfolioState} {contract : Contract} {s : Hedging}
    {events : List HedgingEvent} (executing : Executing s.manager contract) (idle : AllFilled s)
    (fits : |roundHalfAway (portfolio.deltaForProduct s.manager.cfg.product)| < 2^31)
    (along : Along (hedgingStep portfolio) (fun s e => Lawful contract s e ∧ Unstacked portfolio s e) s events)
    (decided : Balanced portfolio s ∨ Decided portfolio s events)
    (filled : AllFilled (after (hedgingStep portfolio) s events)) :
    Balanced portfolio (after (hedgingStep portfolio) s events) := by
  have held : Hedges portfolio contract s.manager.cfg s := by
    refine ⟨executing, rfl, fun o member => ?_, .inr idle⟩
    rw [idle o member]
    decide
  rw [Balanced, ← idle.position] at decided
  obtain ⟨last, bound⟩ := settles fits held along decided
  rw [filled.position, ← last.configured] at bound
  exact bound

theorem hedge_settles_single :
    Balanced longCalls (after (hedgingStep longCalls) ⟨hgManager, []⟩
      [.decision .onFill, .report 0 (soldFive "h1"), .decision .onFill]) := by
  have trades : |targetFor (longCalls.deltaForProduct "HG") - hgManager.hedgeQty| < 2^31 := by decide +kernel
  have nothing : ∀ o : HedgeOrder, o ∈ [] → o.remaining = 0 := by simp
  have sold : Reported hgFuture (after (hedgingStep longCalls) ⟨hgManager, []⟩ [.decision .onFill]) 0 (soldFive "h1") :=
    ⟨⟨⟨false, 5⟩, by decide +kernel, rfl, le_refl _⟩, rfl, by decide, by decide +kernel⟩
  refine @hedge_settles_unstacked longCalls hgFuture _ _ ⟨rfl, rfl⟩ nothing (by decide +kernel) ?_
    (.inr ⟨[], .onFill, _, rfl, rfl⟩) ?_
  · refine ⟨⟨trivial, fun _ _ => ⟨rfl, trades⟩⟩, ⟨sold, trivial⟩, ⟨trivial, fun _ moved => ?_⟩, trivial⟩
    refine absurd ?_ moved
    decide +kernel
  · unfold AllFilled
    decide +kernel

end Corsair.Daemon
