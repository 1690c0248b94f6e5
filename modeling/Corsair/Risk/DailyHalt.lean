import Corsair.Hedge.Manager
import Corsair.Risk.Sticky

namespace Corsair.Risk

open Book Hedge

-- What the hedges that ask to be counted have made and stand to make.
def hedgePnl (h : HedgeFanout) (market : MarketView) : ℚ :=
  ((h.managers.filter (·.cfg.includeInDailyPnl)).map fun m : HedgeManager =>
    m.state.realizedPnlUsd + m.mtmUsd ((market.underlyingPrice m.cfg.product).getD 0)).sum

def RaisesDaily (outcome : RiskCheckOutcome) : Prop :=
  ∃ event, outcome = .killed event ∧ event.source = .dailyHalt

structure OnlyDaily (m : RiskMonitor) (dir : SentinelDir) (f : RiskFigures) (threshold : ℚ) (now : ℕ) : Prop where
  free : m.killed = none
  armed : m.cfg.dailyHaltThreshold = some threshold
  quiet : checkInducedSentinels dir now inducedSentinels = none
  within : ¬stickyBreached m.cfg f

theorem dailyKill_fires {cfg : RiskConfig} {threshold : ℚ} (armed : cfg.dailyHaltThreshold = some threshold)
    (reason : ℚ → ℚ → ℚ → KillReason) (portfolio : PortfolioState) (market : MarketView) (now : ℕ) :
    RaisesDaily ((dailyKill cfg reason portfolio market now).elim .healthy .killed) ↔
      dailyPnl portfolio market < threshold := by
  unfold dailyKill
  simp only [armed]
  split
  · rename_i loss
    exact ⟨fun _ => loss, fun _ => ⟨_, rfl, rfl⟩⟩
  · rename_i enough
    constructor
    · intro given
      obtain ⟨event, fired, -⟩ := given
      cases fired
    · exact fun loss => absurd loss enough

theorem check_raises {m : RiskMonitor} {dir : SentinelDir} {f : RiskFigures} {threshold : ℚ} {now : ℕ}
    (only : OnlyDaily m dir f threshold now) (portfolio : PortfolioState) (market : MarketView) :
    RaisesDaily (m.check dir portfolio f market now).2 ↔ dailyPnl portfolio market < threshold := by
  have within := (limitKill_none m.cfg f now).mpr only.within
  rw [RiskMonitor.check, (RiskMonitor.fireFirst_unkilled only.free _).2, RiskMonitor.checkKill, only.quiet, within]
  exact dailyKill_fires only.armed ..

theorem checkDailyPnlOnly_raises {m : RiskMonitor} {threshold : ℚ} (free : m.killed = none)
    (armed : m.cfg.dailyHaltThreshold = some threshold) (portfolio : PortfolioState) (market : MarketView)
    (now : ℕ) :
    RaisesDaily (m.checkDailyPnlOnly portfolio market now).2 ↔ dailyPnl portfolio market < threshold := by
  rw [RiskMonitor.checkDailyPnlOnly, (RiskMonitor.fireFirst_unkilled free _).2]
  exact dailyKill_fires armed ..

def MeasuresWhole (m : RiskMonitor) (dir : SentinelDir) (f : RiskFigures) (threshold : ℚ) (now later : ℕ)
    (portfolio : PortfolioState) (market : MarketView) (h : HedgeFanout) : Prop :=
  (RaisesDaily (m.check dir portfolio f market now).2 ↔
      dailyPnl portfolio market + hedgePnl h market < threshold) ∧
    (RaisesDaily (m.checkDailyPnlOnly portfolio market later).2 ↔
      dailyPnl portfolio market + hedgePnl h market < threshold) ∧
    (RaisesDaily (m.check dir portfolio f market now).2 ↔
      RaisesDaily (m.checkDailyPnlOnly portfolio market later).2)

section Hidden

def hgHedge (qty : ℤ) (entry : ℚ) : HedgeManager :=
  { HedgeManager.new .hg with state := ⟨qty, entry, 0⟩ }

def forwardAt (price : ℚ) : MarketView := ⟨fun _ => some price, fun _ _ _ _ => none, fun _ _ _ _ => none⟩

-- A call bought at 0.30 and marked at 0.10, 5 000 down.
def markedDown : PortfolioState :=
  (PortfolioState.new ∅).replacePositions [⟨"HG", 6, .epoch, .call, 1, 3/10, 25000, 0, 0, 0, 0, 1/10⟩]

end Hidden

theorem hgLimits_onlyDaily : OnlyDaily (.new hgLimits) noSentinel flatFigures (-2500) 0 :=
  ⟨rfl, rfl, rfl, by unfold stickyBreached; decide +kernel⟩

-- One long future bought at 6 and marked at 5 is 25 000 down against a threshold
-- of 2 500, and neither check sees it.
theorem hedge_loss_unseen :
    ¬MeasuresWhole (.new hgLimits) noSentinel flatFigures (-2500) 0 0 (.new ∅) (forwardAt 5) ⟨[hgHedge 1 6]⟩ := by
  intro given
  obtain ⟨whole, -⟩ := given
  have fired := whole.mpr (by decide +kernel)
  rw [check_raises hgLimits_onlyDaily] at fired
  revert fired
  decide +kernel

theorem daily_halt_measures_whole_iff {m : RiskMonitor} {dir : SentinelDir} {f : RiskFigures} {threshold : ℚ}
    {now : ℕ} (only : OnlyDaily m dir f threshold now) (later : ℕ) (portfolio : PortfolioState)
    (market : MarketView) (h : HedgeFanout) :
    MeasuresWhole m dir f threshold now later portfolio market h ↔
      (dailyPnl portfolio market < threshold ↔ dailyPnl portfolio market + hedgePnl h market < threshold) := by
  unfold MeasuresWhole
  rw [check_raises only, checkDailyPnlOnly_raises only.free only.armed]
  constructor
  · exact fun measures => measures.1
  · exact fun same => ⟨same, same, Iff.rfl⟩

-- Hedges 25 000 down and 23 000 up leave a book without options unhalted, and one of
-- 1 000 up leaves the loss of the calls one to halt for.
theorem daily_halt_measures_whole_hedged :
    MeasuresWhole (.new hgLimits) noSentinel flatFigures (-2500) 0 0 (.new ∅) (forwardAt 5)
        ⟨[hgHedge 1 6, hgHedge (-1) (148/25)]⟩ ∧
      MeasuresWhole (.new hgLimits) noSentinel flatFigures (-2500) 0 0 markedDown (forwardAt 5)
        ⟨[hgHedge (-1) (126/25)]⟩ :=
  ⟨(daily_halt_measures_whole_iff hgLimits_onlyDaily 0 _ _ _).mpr (by decide +kernel),
    (daily_halt_measures_whole_iff hgLimits_onlyDaily 0 _ _ _).mpr (by decide +kernel)⟩

end Corsair.Risk
