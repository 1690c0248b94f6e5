import Corsair.Book.Portfolio

namespace Corsair.Risk

open Book

-- kill.rs
inductive KillType where | halt | flatten | hedgeFlat
  deriving DecidableEq, Repr

inductive KillSource where
  | risk | disconnect | dailyHalt | reconciliation | exceptionStorm | operational
  | induced (inner : KillSource)
  deriving DecidableEq, Repr

def KillSource.isDailyClearable : KillSource → Bool
  | .dailyHalt | .induced .dailyHalt => true
  | _ => false

def KillSource.isDisconnect : KillSource → Bool
  | .disconnect => true
  | _ => false

-- One constructor for each reason text the monitor formats, with the values it
-- formats into it.
inductive KillReason where
  | margin (used limit : ℚ)
  | delta (worst limit : ℚ)
  | vega (worst limit : ℚ)
  | theta (worst limit : ℚ)
  | dailyPnl (daily threshold pct : ℚ)
  | dailyPnlFillPath (daily threshold pct : ℚ)
  | inducedTest (key filename : String)
  | other (text : String)
  deriving DecidableEq

structure KillEvent where
  reason : KillReason
  source : KillSource
  killType : KillType
  timestampNs : ℕ
  deriving DecidableEq

-- sentinel.rs
structure InducedSentinel where
  key : String
  filename : String
  killType : KillType
  innerSource : KillSource

def inducedSentinels : List InducedSentinel := [
  ⟨"daily_pnl", "corsair_induce_daily_pnl", .halt, .dailyHalt⟩,
  ⟨"margin", "corsair_induce_margin", .halt, .risk⟩,
  ⟨"delta", "corsair_induce_delta", .hedgeFlat, .risk⟩,
  ⟨"theta", "corsair_induce_theta", .halt, .risk⟩,
  ⟨"vega", "corsair_induce_vega", .halt, .risk⟩]

-- A file of the sentinel directory: missing, present, or present and refusing removal.
inductive SentinelFile where | absent | removable | stuck
  deriving DecidableEq, Repr

abbrev SentinelDir := String → SentinelFile

-- monitor.rs
structure RiskConfig where
  capital : ℚ
  marginKillPct : ℚ
  dailyHaltThreshold : Option ℚ
  deltaKill : ℚ
  vegaKill : ℚ
  thetaKill : ℚ
  deriving DecidableEq

def hgLimits : RiskConfig := ⟨200000, 7/10, some (-2500), 5, 0, 0⟩

structure RiskMonitor where
  cfg : RiskConfig
  killed : Option KillEvent
  deriving DecidableEq

inductive RiskCheckOutcome where
  | healthy
  | killed (event : KillEvent)
  | alreadyKilled (event : KillEvent)
  deriving DecidableEq

structure RiskFigures where
  marginUsed : ℚ
  worstDelta : ℚ
  worstTheta : ℚ
  worstVega : ℚ
  deriving DecidableEq

-- The first file of the table that exists decides; one that cannot be removed
-- is not fired and ends the scan.
def checkInducedSentinels (dir : SentinelDir) (now : ℕ) : List InducedSentinel → Option KillEvent
  | [] => none
  | s :: rest => match dir s.filename with
    | .absent => checkInducedSentinels dir now rest
    | .stuck => none
    | .removable => some {
        reason := .inducedTest s.key s.filename
        source := .induced s.innerSource
        killType := s.killType
        timestampNs := now }

def marginBreached (cfg : RiskConfig) (f : RiskFigures) : Prop := cfg.capital * cfg.marginKillPct < f.marginUsed
def deltaBreached (cfg : RiskConfig) (f : RiskFigures) : Prop := cfg.deltaKill < |f.worstDelta|
def vegaBreached (cfg : RiskConfig) (f : RiskFigures) : Prop := 0 < cfg.vegaKill ∧ cfg.vegaKill < |f.worstVega|
def thetaBreached (cfg : RiskConfig) (f : RiskFigures) : Prop := cfg.thetaKill < 0 ∧ f.worstTheta < cfg.thetaKill

instance (cfg : RiskConfig) (f : RiskFigures) : Decidable (marginBreached cfg f) := inferInstanceAs (Decidable (_ < _))
instance (cfg : RiskConfig) (f : RiskFigures) : Decidable (deltaBreached cfg f) := inferInstanceAs (Decidable (_ < _))
instance (cfg : RiskConfig) (f : RiskFigures) : Decidable (vegaBreached cfg f) := inferInstanceAs (Decidable (_ ∧ _))
instance (cfg : RiskConfig) (f : RiskFigures) : Decidable (thetaBreached cfg f) := inferInstanceAs (Decidable (_ ∧ _))

-- The four limits of the figures, in the order `check` tries them.
def limitKill (cfg : RiskConfig) (f : RiskFigures) (now : ℕ) : Option KillEvent :=
  if marginBreached cfg f then some ⟨.margin f.marginUsed (cfg.capital * cfg.marginKillPct), .risk, .halt, now⟩
  else if deltaBreached cfg f then some ⟨.delta f.worstDelta cfg.deltaKill, .risk, .hedgeFlat, now⟩
  else if vegaBreached cfg f then some ⟨.vega f.worstVega cfg.vegaKill, .risk, .halt, now⟩
  else if thetaBreached cfg f then some ⟨.theta f.worstTheta cfg.thetaKill, .risk, .halt, now⟩
  else none

def dailyPnl (portfolio : PortfolioState) (market : MarketView) : ℚ :=
  portfolio.realizedPnlPersisted + portfolio.computeMtmPnl market

-- The daily limit, which the full check and the per-fill check share but for the
-- reason text.
def dailyKill (cfg : RiskConfig) (reason : ℚ → ℚ → ℚ → KillReason) (portfolio : PortfolioState)
    (market : MarketView) (now : ℕ) : Option KillEvent :=
  match cfg.dailyHaltThreshold with
  | none => none
  | some threshold =>
    if dailyPnl portfolio market < threshold then
      some ⟨reason (dailyPnl portfolio market) threshold (|threshold| / cfg.capital * 100), .dailyHalt, .halt, now⟩
    else none

namespace RiskMonitor

def new (cfg : RiskConfig) : RiskMonitor := ⟨cfg, none⟩

def isKilled (m : RiskMonitor) : Bool := m.killed.isSome

def fire (m : RiskMonitor) (event : KillEvent) : RiskMonitor × RiskCheckOutcome :=
  ({ m with killed := some event }, .killed event)

def fireFirst (m : RiskMonitor) (found : Option KillEvent) : RiskMonitor × RiskCheckOutcome :=
  match m.killed, found with
  | some event, _ => (m, .alreadyKilled event)
  | none, some event => m.fire event
  | none, none => (m, .healthy)

-- What an un-killed `check` fires: a sentinel, else a breached limit, else the
-- daily halt. With a kill active the source returns before it looks at any of them.
def checkKill (cfg : RiskConfig) (dir : SentinelDir) (portfolio : PortfolioState) (f : RiskFigures)
    (market : MarketView) (now : ℕ) : Option KillEvent :=
  ((checkInducedSentinels dir now inducedSentinels).or (limitKill cfg f now)).or
    (dailyKill cfg .dailyPnl portfolio market now)

def check (m : RiskMonitor) (dir : SentinelDir) (portfolio : PortfolioState) (f : RiskFigures)
    (market : MarketView) (now : ℕ) : RiskMonitor × RiskCheckOutcome :=
  m.fireFirst (checkKill m.cfg dir portfolio f market now)

def checkDailyPnlOnly (m : RiskMonitor) (portfolio : PortfolioState) (market : MarketView) (now : ℕ) :
    RiskMonitor × RiskCheckOutcome :=
  m.fireFirst (dailyKill m.cfg .dailyPnlFillPath portfolio market now)

def clearIf (m : RiskMonitor) (clearable : KillSource → Bool) : RiskMonitor × Bool :=
  match m.killed with
  | some event => if clearable event.source then ({ m with killed := none }, true) else (m, false)
  | none => (m, false)

def clearDisconnectKill (m : RiskMonitor) : RiskMonitor × Bool := m.clearIf KillSource.isDisconnect
def clearDailyHalt (m : RiskMonitor) : RiskMonitor × Bool := m.clearIf KillSource.isDailyClearable

variable {m : RiskMonitor}

theorem fireFirst_killed {event : KillEvent} (active : m.killed = some event) (found : Option KillEvent) :
    m.fireFirst found = (m, .alreadyKilled event) := by
  unfold fireFirst
  rw [active]

theorem fireFirst_unkilled (free : m.killed = none) (found : Option KillEvent) :
    (m.fireFirst found).1 = { m with killed := found } ∧
      (m.fireFirst found).2 = found.elim .healthy .killed := by
  obtain ⟨cfg, killed⟩ := m
  cases free
  cases found <;> exact ⟨rfl, rfl⟩

@[simp] theorem fireFirst_cfg (found : Option KillEvent) : (m.fireFirst found).1.cfg = m.cfg := by
  unfold fireFirst
  split <;> rfl

theorem clearIf_killed {event : KillEvent} (active : m.killed = some event) (clearable : KillSource → Bool)
    (sticky : clearable event.source = false) : (m.clearIf clearable).1 = m := by
  simp only [clearIf, active, sticky]
  rfl

@[simp] theorem clearIf_cfg (clearable : KillSource → Bool) : (m.clearIf clearable).1.cfg = m.cfg := by
  unfold clearIf
  split
  · split <;> rfl
  · rfl

end RiskMonitor

end Corsair.Risk
