import Corsair.Book.Aggregate
import Corsair.Daemon.Tasks
import Corsair.Lib.Worst
import Corsair.Risk.Sticky

namespace Corsair.Daemon

open BrokerApi Book Hedge MarketData Risk

def productDelta (r : Runtime) (product : String) : ℚ :=
  r.portfolio.deltaForProduct product + (r.hedge.hedgeQtyForProduct product : ℚ)

def BreachesDelta (r : Runtime) (product : String) : Prop := r.risk.cfg.deltaKill < |productDelta r product|

def HoldsOption (r : Runtime) (product : String) : Prop := product ∈ r.portfolio.positions.map (·.product)

def DeltaComplete (r : Runtime) (dir : SentinelDir) (now : ℕ) (opens : Except BrokerError (List OpenOrder)) : Prop :=
  (∃ product ∈ r.portfolio.registry.products, BreachesDelta r product) →
    (periodicRiskCheck r dir now opens).1.risk.isKilled

-- The three worst figures are independent folds over the same entries.
theorem worst_fields (gating : Bool) (h : HedgeFanout) (entries : List (String × PortfolioGreeks)) (w : Worst) :
    entries.foldl (worseProduct gating h) w =
      { delta := (entries.map fun e => effectiveDelta gating h e.1 e.2).foldl (Worst.keep (|·|)) w.delta
        theta := (entries.map (·.2.netTheta)).foldl (Worst.keep (-·)) w.theta
        vega := (entries.map (·.2.netVega)).foldl (Worst.keep (|·|)) w.vega } := by
  induction entries generalizing w with
  | nil => rfl
  | cons e rest next =>
    rw [List.foldl_cons, next]
    simp only [worseProduct, Worst.keep, List.map_cons, List.foldl_cons, neg_lt_neg_iff]

theorem mem_perProduct (r : Runtime) (product : String) (g : PortfolioGreeks) :
    (product, g) ∈ r.portfolio.aggregate.perProduct.items ↔
      HoldsOption r product ∧ g = ofProduct r.portfolio product := by
  rw [HashMap.mem_items, perProduct_get]
  unfold HoldsOption
  split
  · rename_i holds
    constructor
    · intro equal
      cases equal
      exact ⟨holds, rfl⟩
    · intro given
      obtain ⟨-, rfl⟩ := given
      rfl
  · rename_i missing
    constructor
    · intro equal
      cases equal
    · exact fun held => absurd held.1 missing

theorem figure_past (r : Runtime) (score : ℚ → ℚ) (figure : String → PortfolioGreeks → ℚ) (limit : ℚ) :
    limit < score ((r.portfolio.aggregate.perProduct.items.map fun e => figure e.1 e.2).foldl (Worst.keep score) 0) ↔
      limit < score 0 ∨
        ∃ product, HoldsOption r product ∧ limit < score (figure product (ofProduct r.portfolio product)) := by
  rw [Worst.lt_fold]
  refine or_congr Iff.rfl ?_
  constructor
  · intro given
    obtain ⟨x, member, past⟩ := given
    obtain ⟨⟨product, g⟩, entry, rfl⟩ := List.mem_map.mp member
    obtain ⟨holds, rfl⟩ := (mem_perProduct r product g).mp entry
    exact ⟨product, holds, past⟩
  · intro given
    obtain ⟨product, holds, past⟩ := given
    exact ⟨_, List.mem_map.mpr ⟨(product, _), (mem_perProduct r product _).mpr ⟨holds, rfl⟩, rfl⟩, past⟩

variable {r : Runtime}

theorem margin_breached : marginBreached r.risk.cfg (riskFigures r) ↔
    r.risk.cfg.capital * r.risk.cfg.marginKillPct < r.account.maintenanceMargin := Iff.rfl

theorem delta_breached (gating : r.config.effectiveDeltaGating = true) :
    deltaBreached r.risk.cfg (riskFigures r) ↔
      r.risk.cfg.deltaKill < 0 ∨ ∃ product, HoldsOption r product ∧ BreachesDelta r product := by
  unfold deltaBreached riskFigures worstPerProduct
  simp only [worst_fields]
  rw [figure_past r (|·|) (effectiveDelta r.config.effectiveDeltaGating r.hedge), abs_zero]
  simp only [effectiveDelta, gating, if_true, ofProduct_delta, BreachesDelta, productDelta]

theorem vega_breached : vegaBreached r.risk.cfg (riskFigures r) ↔
    0 < r.risk.cfg.vegaKill ∧
      ∃ product, HoldsOption r product ∧ r.risk.cfg.vegaKill < |r.portfolio.vegaForProduct product| := by
  unfold vegaBreached riskFigures worstPerProduct
  simp only [worst_fields]
  rw [figure_past r (|·|) (fun _ g => g.netVega), abs_zero]
  simp only [ofProduct_vega]
  refine and_congr_right fun enabled => ?_
  rw [or_iff_right (not_lt.mpr enabled.le)]

theorem theta_breached : thetaBreached r.risk.cfg (riskFigures r) ↔
    r.risk.cfg.thetaKill < 0 ∧
      ∃ product, HoldsOption r product ∧ r.portfolio.thetaForProduct product < r.risk.cfg.thetaKill := by
  unfold thetaBreached riskFigures worstPerProduct
  simp only [worst_fields]
  rw [← neg_lt_neg_iff (a := r.risk.cfg.thetaKill), figure_past r (-·) (fun _ g => g.netTheta), neg_zero]
  simp only [ofProduct_theta, neg_lt_neg_iff]
  refine and_congr_right fun enabled => ?_
  rw [or_iff_right (by simpa using enabled.le)]

def KilledAnyway (r : Runtime) (dir : SentinelDir) (now : ℕ) : Prop :=
  r.risk.isKilled ∨ (checkInducedSentinels dir now inducedSentinels).isSome ∨
    r.risk.cfg.capital * r.risk.cfg.marginKillPct < r.account.maintenanceMargin ∨
    r.risk.cfg.deltaKill < 0 ∨
    (0 < r.risk.cfg.vegaKill ∧
      ∃ product, HoldsOption r product ∧ r.risk.cfg.vegaKill < |r.portfolio.vegaForProduct product|) ∨
    (r.risk.cfg.thetaKill < 0 ∧
      ∃ product, HoldsOption r product ∧ r.portfolio.thetaForProduct product < r.risk.cfg.thetaKill) ∨
    ∃ threshold, r.risk.cfg.dailyHaltThreshold = some threshold ∧
      dailyPnl r.portfolio r.marketData.view < threshold

theorem dailyKill_isSome (cfg : RiskConfig) (reason : ℚ → ℚ → ℚ → KillReason) (portfolio : PortfolioState)
    (market : MarketView) (now : ℕ) : (dailyKill cfg reason portfolio market now).isSome ↔
      ∃ threshold, cfg.dailyHaltThreshold = some threshold ∧ dailyPnl portfolio market < threshold := by
  unfold dailyKill
  cases cfg.dailyHaltThreshold with
  | none => simp
  | some threshold => by_cases loss : dailyPnl portfolio market < threshold <;> simp [loss]

theorem check_kills (m : RiskMonitor) (found : Option KillEvent) :
    (m.fireFirst found).1.isKilled ↔ m.isKilled ∨ found.isSome := by
  cases active : m.killed with
  | some event =>
    rw [RiskMonitor.fireFirst_killed active]
    simp [RiskMonitor.isKilled, active]
  | none =>
    rw [(RiskMonitor.fireFirst_unkilled active found).1]
    simp [RiskMonitor.isKilled, active]

-- The delta breach of a held product, taken out of the order `check` tries its causes in.
theorem apart_from_delta (active sentinel margin negative delta vega theta daily : Prop) :
    active ∨ ((sentinel ∨ (margin ∨ (negative ∨ delta) ∨ vega ∨ theta)) ∨ daily) ↔
      delta ∨ active ∨ sentinel ∨ margin ∨ negative ∨ vega ∨ theta ∨ daily := by
  tauto

theorem periodic_check_kills (gating : r.config.effectiveDeltaGating = true) (dir : SentinelDir) (now : ℕ)
    (opens : Except BrokerError (List OpenOrder)) :
    (periodicRiskCheck r dir now opens).1.risk.isKilled ↔
      (∃ product, HoldsOption r product ∧ BreachesDelta r product) ∨ KilledAnyway r dir now := by
  have limits : (limitKill r.risk.cfg (riskFigures r) now).isSome ↔ stickyBreached r.risk.cfg (riskFigures r) := by
    rw [← not_iff_not, Option.not_isSome_iff_eq_none, limitKill_none]
  have killed := check_kills r.risk
    (RiskMonitor.checkKill r.risk.cfg dir r.portfolio (riskFigures r) r.marketData.view now)
  unfold RiskMonitor.checkKill at killed
  rw [Option.isSome_or, Option.isSome_or, Bool.or_eq_true, Bool.or_eq_true, limits, dailyKill_isSome,
    stickyBreached, margin_breached, delta_breached gating, vega_breached, theta_breached] at killed
  exact killed.trans (apart_from_delta ..)

section HedgeOnly

def flatAccount : AccountSnapshot := ⟨0, 0, 0, 0, 0, 0⟩

def longHedge (qty : ℤ) : HedgeManager :=
  { HedgeManager.new .hg with state := ⟨qty, 6, 0⟩ }

def hedgedOnly (qty : ℤ) : Runtime where
  mode := .live
  config := ⟨true, some "DU1"⟩
  portfolio := .new (ProductRegistry.register ∅ ⟨"HG", 25000, 3/10⟩)
  risk := .new hgLimits
  hedge := ⟨[longHedge qty]⟩
  marketData := .new
  account := flatAccount

def noFiles : SentinelDir := fun _ => .absent

end HedgeOnly

-- Nine futures against a limit of five, and no option position to bring the
-- product into the aggregate.
theorem hedge_only_delta_unseen : ¬DeltaComplete (hedgedOnly 9) noFiles 0 (.ok []) := by
  intro complete
  have killed := complete ⟨"HG", by decide +kernel, by unfold BreachesDelta; decide +kernel⟩
  revert killed
  decide +kernel

theorem delta_complete_iff (gating : r.config.effectiveDeltaGating = true) (dir : SentinelDir) (now : ℕ)
    (opens : Except BrokerError (List OpenOrder)) :
    DeltaComplete r dir now opens ↔
      (∀ product ∈ r.portfolio.registry.products, ¬BreachesDelta r product) ∨
        (∃ product, HoldsOption r product ∧ BreachesDelta r product) ∨ KilledAnyway r dir now := by
  unfold DeltaComplete
  rw [periodic_check_kills gating]
  constructor
  · intro complete
    by_cases some : ∃ product ∈ r.portfolio.registry.products, BreachesDelta r product
    · exact .inr (complete some)
    · refine .inl fun product registered breach => ?_
      exact some ⟨product, registered, breach⟩
  · rintro (within | killed) ⟨product, registered, breach⟩
    · exact absurd breach (within product registered)
    · exact killed

theorem delta_complete_within :
    DeltaComplete (hedgedOnly 3) noFiles 0 (.ok []) ↔
      (∀ product ∈ (hedgedOnly 3).portfolio.registry.products, ¬BreachesDelta (hedgedOnly 3) product) ∨
        (∃ product, HoldsOption (hedgedOnly 3) product ∧ BreachesDelta (hedgedOnly 3) product) ∨
        KilledAnyway (hedgedOnly 3) noFiles 0 :=
  delta_complete_iff rfl noFiles 0 (.ok [])

end Corsair.Daemon
