import Corsair.Daemon.KilledWhileDown

namespace Corsair.Daemon

open BrokerApi Book MarketData Risk

def pnl (d : DaemonState) : ℚ := dailyPnl d.runtime.portfolio d.runtime.marketData.view

instance rolls_decidable (s : DaemonState) : (e : DaemonEvent) → Decidable (Rolls s e)
  | .rollover hour today => inferInstanceAs (Decidable (17 ≤ hour ∧ s.lastFiredDay ≠ some today))
  | .riskCheck .. | .fill .. | .connection _ | .placeTaken .. | .placeSent | .cancel _ | .tick _ | .hedgeTick ..
  | .greekRefresh _ | .accountPoll _ => .isFalse not_false

-- The daemon with what it has made since the last rollover it processed.
structure Session where
  daemon : DaemonState
  accrued : Option ℚ

def sessionStep (s : Session) (e : DaemonEvent) : Session × List Call :=
  let (daemon, calls) := daemonStep s.daemon e
  let accrued := if Rolls s.daemon e then some 0 else s.accrued.map (· + (pnl daemon - pnl s.daemon))
  ({ daemon, accrued }, calls)

section Property

variable (d : DaemonState)

def sessionAfter (events : List DaemonEvent) : Session := Machine.after sessionStep ⟨d, none⟩ events

-- Everything a check would compare is what accrued, and a daily halt means a loss of the session.
structure DailyRestarts (events : List DaemonEvent) : Prop where
  figure : ∀ past, past <+: events → ∀ accrued ∈ (sessionAfter d past).accrued, pnl (sessionAfter d past).daemon = accrued
  halts : ∀ past e, past ++ [e] <+: events → ∀ event,
    checkOutcome (sessionAfter d past).daemon e = some (.killed event) → event.source = .dailyHalt →
      ∀ accrued ∈ (sessionAfter d (past ++ [e])).accrued,
        ∃ threshold ∈ d.runtime.risk.cfg.dailyHaltThreshold, accrued < threshold

end Property

-- The book stands at nothing when the session rolls over.
def RollsFlat (s : DaemonState) (e : DaemonEvent) : Prop := Rolls s e → pnl s = 0

section Accrual

variable (market : MarketView) (p : Book.Position)

-- A position without a price is carried at its entry.
def carriedAt : ℚ :=
  let live := (market.currentPrice p.product p.strike p.expiry p.right).getD p.currentPrice
  if live ≤ 0 then p.avgFillPrice else live

theorem positionPnl_carried :
    PortfolioState.positionPnl market p = p.quantity * (carriedAt market p - p.avgFillPrice) * p.multiplier := by
  unfold PortfolioState.positionPnl carriedAt
  dsimp only
  split
  · rw [sub_self, mul_zero, zero_mul]
  · rfl

-- What a change of prices adds is the move of each position.
theorem dailyPnl_moves (portfolio : PortfolioState) (before later : MarketView) :
    dailyPnl portfolio later - dailyPnl portfolio before =
      (portfolio.positions.map fun p : Book.Position =>
        p.quantity * (carriedAt later p - carriedAt before p) * p.multiplier).sum := by
  unfold dailyPnl PortfolioState.computeMtmPnl
  rw [add_sub_add_left_eq_sub]
  induction portfolio.positions with
  | nil => simp
  | cons p rest next =>
    rw [List.map_cons, List.sum_cons, List.map_cons, List.sum_cons, List.map_cons, List.sum_cons, ← next,
      positionPnl_carried, positionPnl_carried]
    ring

theorem tick_accrues (s : DaemonState) (tick : Tick) :
    pnl (daemonStep s (.tick tick)).1 - pnl s = (s.runtime.portfolio.positions.map fun p : Book.Position =>
      p.quantity * (carriedAt (pumpTick s.runtime tick).marketData.view p - carriedAt s.runtime.marketData.view p) *
        p.multiplier).sum := by
  have same : (pumpTick s.runtime tick).portfolio = s.runtime.portfolio := by
    unfold pumpTick
    split
    · rfl
    · split <;> rfl
  rw [← dailyPnl_moves, pnl, pnl, daemonStep, same]

end Accrual

section Steps

variable {s : DaemonState} {e : DaemonEvent}

theorem hedgeOnFill_books (r : Runtime) (product : String) :
    (hedgeOnFill r product).1.portfolio = r.portfolio ∧ (hedgeOnFill r product).1.marketData = r.marketData := by
  unfold hedgeOnFill
  split
  · exact ⟨rfl, rfl⟩
  · exact ⟨rfl, rfl⟩

-- What a check looks at is what the event leaves.
theorem checked_pnl {r : Runtime} (checks : checkedOn s e = some r) :
    pnl (daemonStep s e).1 = dailyPnl r.portfolio r.marketData.view := by
  cases e with
  | riskCheck dir now book =>
    cases checks
    rfl
  | fill fill now book =>
    obtain ⟨product, result⟩ := handleFill_booked checks now book.openOrders
    simp only [pnl, daemonStep, result, (hedgeOnFill_books _ _).1, (hedgeOnFill_books _ _).2]
  | _ => cases checks

theorem rolls_pnl (rolls : Rolls s e) : pnl (daemonStep s e).1 = pnl s := by
  cases e with
  | rollover hour today =>
    have through : 17 ≤ hour ∧ s.lastFiredDay ≠ some today := rolls
    simp only [pnl, daemonStep, dailyHaltRollover, if_pos through]
  | _ => exact rolls.elim

theorem step_riskCfg (s : DaemonState) (e : DaemonEvent) : (daemonStep s e).1.runtime.risk.cfg = s.runtime.risk.cfg := by
  rcases step_risk s e with ⟨-, r, fires⟩ | ⟨-, cleared⟩ | ⟨-, cleared⟩ | ⟨-, same⟩
  · rw [fires, RiskMonitor.fireFirst_cfg]
  · rw [cleared]
    exact RiskMonitor.clearIf_cfg _
  · rw [cleared]
    exact RiskMonitor.clearIf_cfg _
  · rw [same]

theorem dailyKill_loss {cfg : RiskConfig} {reason : ℚ → ℚ → ℚ → KillReason} {portfolio : PortfolioState}
    {market : MarketView} {now : ℕ} {event : KillEvent} (fired : dailyKill cfg reason portfolio market now = some event) :
    ∃ threshold ∈ cfg.dailyHaltThreshold, dailyPnl portfolio market < threshold := by
  unfold dailyKill at fired
  split at fired
  · cases fired
  · rename_i threshold armed
    split at fired
    · rename_i loss
      exact ⟨threshold, armed, loss⟩
    · cases fired

theorem found_daily {r : Runtime} {event : KillEvent} (fired : found r e = some event) (daily : event.source = .dailyHalt) :
    ∃ threshold ∈ r.risk.cfg.dailyHaltThreshold, dailyPnl r.portfolio r.marketData.view < threshold := by
  cases e with
  | riskCheck dir now book =>
    unfold found RiskMonitor.checkKill at fired
    rcases Option.or_eq_some_iff.mp fired with early | ⟨-, last⟩
    · rcases Option.or_eq_some_iff.mp early with induced | ⟨-, limit⟩
      · obtain ⟨inner, source⟩ := sentinel_source induced
        rw [daily] at source
        cases source
      · rw [limitKill_source limit] at daily
        cases daily
    · exact dailyKill_loss last
  | fill fill now book => exact dailyKill_loss fired
  | _ => cases fired

-- A halt is raised on the figure the event leaves.
theorem halted_loss {event : KillEvent} (fires : checkOutcome s e = some (.killed event)) (daily : event.source = .dailyHalt) :
    ∃ threshold ∈ s.runtime.risk.cfg.dailyHaltThreshold, pnl (daemonStep s e).1 < threshold := by
  obtain ⟨r, checks, outcome⟩ := Option.map_eq_some_iff.mp fires
  have same := (checked_risk checks).2
  rw [checked_pnl checks, ← same]
  cases active : r.risk.killed with
  | some old =>
    rw [RiskMonitor.fireFirst_killed active] at outcome
    cases outcome
  | none =>
    rw [(RiskMonitor.fireFirst_unkilled active _).2] at outcome
    cases fired : found r e with
    | none =>
      rw [fired] at outcome
      cases outcome
    | some other =>
      rw [fired] at outcome
      cases outcome
      exact found_daily fired daily

end Steps

section Runs

variable (d : DaemonState)

theorem sessionAfter_snoc (past : List DaemonEvent) (e : DaemonEvent) :
    sessionAfter d (past ++ [e]) = (sessionStep (sessionAfter d past) e).1 := by
  rw [sessionAfter, Machine.after_append]
  rfl

theorem sessionAfter_daemon (events : List DaemonEvent) :
    (sessionAfter d events).daemon = Machine.after daemonStep d events := by
  induction events using List.reverseRecOn with
  | nil => rfl
  | append_singleton past e same =>
    rw [sessionAfter_snoc, after_snoc, ← same]
    rfl

theorem sessionAfter_cfg (events : List DaemonEvent) :
    (sessionAfter d events).daemon.runtime.risk.cfg = d.runtime.risk.cfg := by
  induction events using List.reverseRecOn with
  | nil => rfl
  | append_singleton past e same =>
    rw [sessionAfter_snoc, ← same]
    exact step_riskCfg _ e

end Runs

-- The figure is what accrued: kept by every step, and set by a rollover of a flat book.
def MeasuresSession (s : Session) : Prop := ∀ accrued ∈ s.accrued, pnl s.daemon = accrued

theorem measures_step {s : Session} {e : DaemonEvent} (measures : MeasuresSession s) :
    MeasuresSession (sessionStep s e).1 ↔ RollsFlat s.daemon e := by
  unfold MeasuresSession RollsFlat sessionStep
  dsimp only
  by_cases rolls : Rolls s.daemon e
  · rw [if_pos rolls]
    constructor
    · intro same _
      rw [← rolls_pnl rolls]
      exact same 0 rfl
    · intro flat accrued own
      obtain rfl := Option.some.inj own
      rw [rolls_pnl rolls]
      exact flat rolls
  · rw [if_neg rolls]
    refine iff_of_true ?_ fun goes => absurd goes rolls
    intro accrued own
    obtain ⟨before, held, rfl⟩ := Option.map_eq_some_iff.mp own
    rw [measures before held]
    ring

section Carried

-- The loss is carried through the rollover.
def carried : List DaemonEvent := losing ++ [checkAt 3, .rollover 17 june, checkAt 5]

end Carried

theorem halted_again : ¬DailyRestarts (.start calm) carried := by
  intro restarts
  have again : ∃ event, checkOutcome (sessionAfter (.start calm) (carried.take 4)).daemon (checkAt 5) = some (.killed event) ∧
      event.source = .dailyHalt := by
    refine ⟨⟨.dailyPnl (-5000) (-2500) (5/4), .dailyHalt, .halt, 5⟩, ?_, rfl⟩
    decide +kernel
  have nothing : (sessionAfter (.start calm) carried).accrued = some 0 := by decide +kernel
  obtain ⟨event, fires, daily⟩ := again
  obtain ⟨threshold, armed, loss⟩ := restarts.halts (carried.take 4) (checkAt 5) List.prefix_rfl event fires daily 0 nothing
  obtain rfl := Option.some.inj armed
  revert loss
  decide +kernel

theorem daily_restarts_iff (d : DaemonState) (events : List DaemonEvent) :
    DailyRestarts d events ↔
      ∀ past e, past ++ [e] <+: events → RollsFlat (Machine.after daemonStep d past) e := by
  constructor
  · intro restarts past e within
    have before : MeasuresSession (sessionAfter d past) := restarts.figure past ((List.prefix_append past [e]).trans within)
    have later := restarts.figure (past ++ [e]) within
    rw [sessionAfter_snoc] at later
    rw [← sessionAfter_daemon]
    exact (measures_step before).mp later
  · intro flat
    have measures : ∀ past, past <+: events → MeasuresSession (sessionAfter d past) := by
      intro past within
      induction past using List.reverseRecOn with
      | nil =>
        intro accrued own
        cases own
      | append_singleton past e held =>
        rw [sessionAfter_snoc]
        refine (measures_step (held ((List.prefix_append past [e]).trans within))).mpr ?_
        rw [sessionAfter_daemon]
        exact flat past e within
    refine ⟨measures, ?_⟩
    intro past e within event fires daily accrued own
    obtain ⟨threshold, armed, loss⟩ := halted_loss fires daily
    rw [sessionAfter_cfg] at armed
    have same := measures (past ++ [e]) within accrued own
    rw [sessionAfter_snoc] at same
    exact ⟨threshold, armed, same ▸ loss⟩

end Corsair.Daemon
