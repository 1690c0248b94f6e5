import Corsair.Lib.Machine
import Corsair.Risk.Monitor

namespace Corsair.Risk

open Book

inductive RiskOp where
  | check (dir : SentinelDir) (portfolio : PortfolioState) (figures : RiskFigures) (market : MarketView) (now : ℕ)
  | checkDailyPnlOnly (portfolio : PortfolioState) (market : MarketView) (now : ℕ)
  | clearDisconnectKill
  | clearDailyHalt

def riskStep (m : RiskMonitor) : RiskOp → RiskMonitor × List RiskCheckOutcome
  | .check dir portfolio figures market now =>
    let (next, outcome) := m.check dir portfolio figures market now
    (next, [outcome])
  | .checkDailyPnlOnly portfolio market now =>
    let (next, outcome) := m.checkDailyPnlOnly portfolio market now
    (next, [outcome])
  | .clearDisconnectKill => (m.clearDisconnectKill.1, [])
  | .clearDailyHalt => (m.clearDailyHalt.1, [])

def stickyBreached (cfg : RiskConfig) (f : RiskFigures) : Prop :=
  marginBreached cfg f ∨ deltaBreached cfg f ∨ vegaBreached cfg f ∨ thetaBreached cfg f

def Breaching (cfg : RiskConfig) : RiskOp → Prop
  | .check _ _ figures _ _ => stickyBreached cfg figures
  | _ => False

-- No clear of the monitor lifts a kill of this source.
def KillSource.sticky (source : KillSource) : Bool := !source.isDailyClearable && !source.isDisconnect

def StickyKilled (m : RiskMonitor) : Prop := ∃ event, m.killed = some event ∧ event.source.sticky

theorem limitKill_none (cfg : RiskConfig) (f : RiskFigures) (now : ℕ) :
    limitKill cfg f now = none ↔ ¬stickyBreached cfg f := by
  unfold limitKill stickyBreached
  by_cases margin : marginBreached cfg f
  · simp [margin]
  · by_cases delta : deltaBreached cfg f
    · simp [margin, delta]
    · by_cases vega : vegaBreached cfg f
      · simp [margin, delta, vega]
      · by_cases theta : thetaBreached cfg f <;> simp [margin, delta, vega, theta]

theorem limitKill_source {cfg : RiskConfig} {f : RiskFigures} {now : ℕ} {event : KillEvent}
    (fired : limitKill cfg f now = some event) : event.source = .risk := by
  unfold limitKill at fired
  split at fired
  · cases fired; rfl
  · split at fired
    · cases fired; rfl
    · split at fired
      · cases fired; rfl
      · split at fired
        · cases fired; rfl
        · cases fired

theorem riskStep_cfg (m : RiskMonitor) (op : RiskOp) : (riskStep m op).1.cfg = m.cfg := by
  cases op with
  | check dir portfolio figures market now => exact RiskMonitor.fireFirst_cfg _
  | checkDailyPnlOnly portfolio market now => exact RiskMonitor.fireFirst_cfg _
  | clearDisconnectKill => exact RiskMonitor.clearIf_cfg _
  | clearDailyHalt => exact RiskMonitor.clearIf_cfg _

theorem sticky_preserved {m : RiskMonitor} (killed : StickyKilled m) (op : RiskOp) : (riskStep m op).1 = m := by
  obtain ⟨event, active, sticky⟩ := killed
  simp only [KillSource.sticky, Bool.and_eq_true, Bool.not_eq_true'] at sticky
  cases op with
  | check dir portfolio figures market now =>
    exact congrArg Prod.fst (RiskMonitor.fireFirst_killed active _)
  | checkDailyPnlOnly portfolio market now =>
    exact congrArg Prod.fst (RiskMonitor.fireFirst_killed active _)
  | clearDisconnectKill => exact RiskMonitor.clearIf_killed active _ sticky.2
  | clearDailyHalt => exact RiskMonitor.clearIf_killed active _ sticky.1

theorem sticky_forever {m : RiskMonitor} (killed : StickyKilled m) (ops : List RiskOp) :
    StickyKilled (Machine.after riskStep m ops) :=
  Machine.reached StickyKilled (fun _ op _ kept => (sticky_preserved kept op).symm ▸ kept) killed (Machine.along_true m ops)

-- A breach is remembered where the slot it finds, or the sentinel that fires
-- before its limit is looked at, is itself sticky.
def Remembered (m : RiskMonitor) : RiskOp → Prop
  | .check dir _ figures _ now => stickyBreached m.cfg figures →
    match m.killed with
    | some event => event.source.sticky
    | none => ∀ event, checkInducedSentinels dir now inducedSentinels = some event → event.source.sticky
  | _ => True

theorem breach_slot {m : RiskMonitor} {figures : RiskFigures} (breached : stickyBreached m.cfg figures)
    (dir : SentinelDir) (portfolio : PortfolioState) (market : MarketView) (now : ℕ) :
    ∃ event, (m.check dir portfolio figures market now).1.killed = some event ∧
      (event.source.sticky ↔ Remembered m (.check dir portfolio figures market now)) := by
  cases active : m.killed with
  | some event =>
    refine ⟨event, ?_, ?_⟩
    · rw [RiskMonitor.check, RiskMonitor.fireFirst_killed active]
      exact active
    · simp only [Remembered, active]
      exact ⟨fun sticky _ => sticky, fun remembered => remembered breached⟩
  | none =>
    rw [RiskMonitor.check, (RiskMonitor.fireFirst_unkilled active _).1]
    simp only [Remembered, active, RiskMonitor.checkKill]
    cases sentinel : checkInducedSentinels dir now inducedSentinels with
    | some event =>
      refine ⟨event, rfl, ?_⟩
      constructor
      · rintro sticky - other fired
        cases fired
        exact sticky
      · exact fun remembered => remembered breached event rfl
    | none =>
      cases limit : limitKill m.cfg figures now with
      | none => exact absurd breached ((limitKill_none m.cfg figures now).mp limit)
      | some event =>
        refine ⟨event, rfl, ?_⟩
        rw [limitKill_source limit]
        constructor
        · rintro - - other fired
          cases fired
        · exact fun _ => rfl

theorem isKilled_of_sticky {m : RiskMonitor} (killed : StickyKilled m) : m.isKilled := by
  obtain ⟨event, active, -⟩ := killed
  unfold RiskMonitor.isKilled
  rw [active]
  rfl

theorem breach_remembered {m : RiskMonitor} {op : RiskOp} (breaching : Breaching m.cfg op)
    (remembered : Remembered m op) : StickyKilled (riskStep m op).1 := by
  cases op with
  | check dir portfolio figures market now =>
    obtain ⟨event, slot, sticky⟩ := breach_slot breaching dir portfolio market now
    exact ⟨event, slot, sticky.mpr remembered⟩
  | _ => cases breaching

theorem clear_empties {m : RiskMonitor} {event : KillEvent} (active : m.killed = some event)
    (clearable : ¬event.source.sticky) : ∃ op, (riskStep m op).1.isKilled = false := by
  simp only [KillSource.sticky, Bool.and_eq_true, Bool.not_eq_true'] at clearable
  by_cases daily : event.source.isDailyClearable
  · refine ⟨.clearDailyHalt, ?_⟩
    simp only [riskStep, RiskMonitor.clearDailyHalt, RiskMonitor.clearIf, active, daily]
    rfl
  · have disconnect : event.source.isDisconnect = true := by
      by_contra other
      exact clearable ⟨by simpa using daily, by simpa using other⟩
    refine ⟨.clearDisconnectKill, ?_⟩
    simp only [riskStep, RiskMonitor.clearDisconnectKill, RiskMonitor.clearIf, active, disconnect]
    rfl

def NeverForgotten (m : RiskMonitor) (ops : List RiskOp) : Prop :=
  ∀ past op later, past ++ op :: later <+: ops → Breaching m.cfg op →
    (Machine.after riskStep m (past ++ op :: later)).isKilled

theorem after_cfg (m : RiskMonitor) (ops : List RiskOp) : (Machine.after riskStep m ops).cfg = m.cfg :=
  Machine.reached (fun s => s.cfg = m.cfg) (fun _ op _ same => (riskStep_cfg _ op).trans same) rfl
    (Machine.along_true m ops)

section Halted

def flatFigures : RiskFigures := ⟨0, 0, 0, 0⟩
def deltaFigures : RiskFigures := ⟨0, 9, 0, 0⟩
def noSentinel : SentinelDir := fun _ => .absent
def lossBook : PortfolioState := { PortfolioState.new ∅ with realizedPnlPersisted := -3000 }
def noMarket : MarketView := ⟨fun _ => none, fun _ _ _ _ => none, fun _ _ _ _ => none⟩

end Halted

-- The delta breach of the second check finds the daily halt of the first in the
-- slot; the rollover clear then leaves the monitor un-killed.
theorem delta_breach_forgotten :
    ¬NeverForgotten (.new hgLimits) [.check noSentinel lossBook flatFigures noMarket 1,
      .check noSentinel lossBook deltaFigures noMarket 2, .clearDailyHalt] := by
  intro never
  have killed := never [.check noSentinel lossBook flatFigures noMarket 1]
    (.check noSentinel lossBook deltaFigures noMarket 2) [.clearDailyHalt] (List.prefix_refl _)
    (.inr (.inl (by decide +kernel)))
  revert killed
  decide +kernel

theorem remembered_never_forgotten (m : RiskMonitor) :
    (∀ ops, Machine.Along riskStep Remembered m ops → NeverForgotten m ops) ∧
      ∀ op, Breaching m.cfg op →
        ((∀ later, (Machine.after riskStep m (op :: later)).isKilled) ↔ Remembered m op) := by
  constructor
  · rintro ops along past op later ⟨rest, equal⟩ breaching
    rw [← equal, List.append_assoc, List.cons_append, Machine.along_append] at along
    rw [← after_cfg m past] at breaching
    have killed := breach_remembered breaching along.2.1
    rw [Machine.after_append]
    exact isKilled_of_sticky (sticky_forever killed later)
  · intro op breaching
    constructor
    · intro always
      cases op with
      | check dir portfolio figures market now =>
        obtain ⟨event, slot, sticky⟩ := breach_slot breaching dir portfolio market now
        by_contra forgotten
        obtain ⟨clear, freed⟩ := clear_empties (m := (riskStep m (.check dir portfolio figures market now)).1)
          slot fun held => forgotten (sticky.mp held)
        have killed := always [clear]
        simp only [Machine.after] at killed
        rw [freed] at killed
        cases killed
      | _ => cases breaching
    · exact fun remembered later => isKilled_of_sticky (sticky_forever (breach_remembered breaching remembered) later)

end Corsair.Risk
