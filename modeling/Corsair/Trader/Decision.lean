import Corsair.Trader.State

namespace Corsair.Trader

-- decision.rs
inductive Side where | buy | sell
  deriving DecidableEq, Repr

def Side.asStr : Side → String
  | .buy => "BUY"
  | .sell => "SELL"

def Side.asChar : Side → Char
  | .buy => 'B'
  | .sell => 'S'

structure Decision where
  side : Side
  price : ℚ
  cancelOldOid : Option ℤ
  deriving DecidableEq

def maxStrikeOffsetUsd : ℚ := 3/10
def stalenessTicks : ℤ := 1
def cooldownNs : ℕ := 250000000
def deadBandTicks : ℤ := 1
def gtdLifetimeS : ℚ := 5
def gtdRefreshLeadS : ℚ := 3/2
def riskStateStaleS : ℚ := 5
def minBboSize : ℤ := 1
def maxForwardDriftTicks : ℤ := 200
def atmTolUsd : ℚ := 1/40
def cancelThresholdS : ℚ := 1

-- pricing.rs and the clock of tte_cache.rs. A NaN volatility is `none`.
structure Quoting where
  sviImpliedVol (f k t a b rho m sigma : ℚ) : Option ℚ
  sabrImpliedVol (f k t alpha beta rho nu : ℚ) : Option ℚ
  black76Price (f k t sigma r : ℚ) (right : Char) : ℚ
  timeToExpiryYears (expiry : String) : Option ℚ

def seconds (ns : ℕ) : ℚ := ns / 10^9

section Theo

variable (quoting : Quoting)

def impliedVol (forward strike tte : ℚ) (params : VolParams) : Option ℚ :=
  match params.model with
  | "svi" => do
    quoting.sviImpliedVol forward strike tte (← params.a) (← params.b) (← params.rho) (← params.m) (← params.sigma)
  | "sabr" => do
    quoting.sabrImpliedVol forward strike tte (← params.alpha) (← params.beta) (← params.rho) (← params.nu)
  | _ => none

def computeTheo (forward strike tte : ℚ) (right : Char) (params : VolParams) : Option ℚ := do
  if forward ≤ 0 ∨ strike ≤ 0 ∨ tte ≤ 0 then none
  let iv ← impliedVol quoting forward strike tte params
  if iv ≤ 0 then none
  let theo := quoting.black76Price forward strike tte iv 0 right
  if theo ≤ 0 then none
  return theo

end Theo

-- The lookup both decide_on_tick and staleness_check make: the option's own side,
-- then the calls, then the puts.
def surfaceFor (surfaces : HashMap (String × Char) VolSurfaceEntry) (expiry : String) (right : Char) :
    Option VolSurfaceEntry :=
  (surfaces.get (expiry, right)).or ((surfaces.get (expiry, 'C')).or (surfaces.get (expiry, 'P')))

structure RiskGates where
  buy : Bool
  sell : Bool
  all : Bool

def computeRiskGates (s : TraderState) (nowMonotonicNs : ℕ) : RiskGates :=
  match s.riskEffectiveDelta with
  | none => ⟨false, false, true⟩
  | some eff =>
    if s.riskStateAgeMonotonicNs = 0 ∨
        riskStateStaleS < seconds (nowMonotonicNs - s.riskStateAgeMonotonicNs) then ⟨false, false, true⟩
    else
      { buy := decide (s.deltaCeiling ≤ eff + 1)
        sell := decide (eff - 1 ≤ -s.deltaCeiling)
        all := decide (s.deltaKill - 1 ≤ |eff|) || s.riskMarginPct.any (s.marginCeilingPct ≤ ·) }

-- theo ± edge, one tick ahead of the incumbent where that keeps the edge; `none`
-- when it is not positive or would cross.
def targetPrice (s : TraderState) (theo bid ask : ℚ) : Side → Option ℚ
  | .buy =>
    let edge := s.minEdgeTicks * s.tickSize
    let naive := theo - edge
    if naive ≤ 0 then none
    else
      let jumped := bid + s.tickSize
      let target := if naive < jumped ∧ edge ≤ theo - jumped then jumped else naive
      if ask ≤ target then none else some target
  | .sell =>
    let edge := s.minEdgeTicks * s.tickSize
    let naive := theo + edge
    if naive ≤ 0 then none
    else
      let jumped := ask - s.tickSize
      let target := if jumped < naive ∧ edge ≤ jumped - theo then jumped else naive
      if target ≤ bid then none else some target

def quantize (tickSize target : ℚ) : ℚ :=
  roundHalfAway (roundHalfAway (target / tickSize) * tickSize * 10000) / 10000

-- A live quote is left alone in the dead band until its refresh, and for the cooldown.
def keepsQuote (s : TraderState) (existing : OurOrder) (price : ℚ) (nowMonotonicNs : ℕ) : Bool :=
  let age := nowMonotonicNs - existing.placeMonotonicNs
  (|price - existing.price| < deadBandTicks * s.tickSize ∧ seconds age ≤ gtdLifetimeS - gtdRefreshLeadS) ∨
    age < cooldownNs

def cancelOldOid (existing : OurOrder) (nowMonotonicNs : ℕ) : Option ℤ :=
  if cancelThresholdS < gtdLifetimeS - seconds (nowMonotonicNs - existing.placeMonotonicNs) then existing.orderId
  else none

def decideSide (s : TraderState) (tick : TickMsg) (theo bid ask : ℚ) (gates : RiskGates) (nowMonotonicNs : ℕ)
    (side : Side) : Option Decision := do
  let target ← targetPrice s theo bid ask side
  let price := quantize s.tickSize target
  if match side with
    | .buy => gates.buy
    | .sell => gates.sell
  then none
  match s.ourOrders.get ⟨tick.strike, tick.expiry, sideChar tick.right, side.asChar⟩ with
  | none => return ⟨side, price, none⟩
  | some existing =>
    if keepsQuote s existing price nowMonotonicNs then none
    return ⟨side, price, cancelOldOid existing nowMonotonicNs⟩

def quotable (s : TraderState) (tick : TickMsg) (gates : RiskGates) : Bool :=
  let right := sideChar tick.right
  0 < s.underlyingPrice ∧ s.kills.items.isEmpty ∧ ¬s.weekendPaused ∧
    |tick.strike - s.underlyingPrice| ≤ maxStrikeOffsetUsd ∧
    ¬(right = 'C' ∧ tick.strike < s.underlyingPrice - atmTolUsd) ∧
    ¬(right = 'P' ∧ s.underlyingPrice + atmTolUsd < tick.strike) ∧ ¬gates.all

def decideOnTick (quoting : Quoting) (s : TraderState) (tick : TickMsg) (nowMonotonicNs : ℕ) : List Decision :=
  let gates := computeRiskGates s nowMonotonicNs
  if ¬quotable s tick gates then []
  else match surfaceFor s.volSurfaces tick.expiry (sideChar tick.right), quoting.timeToExpiryYears tick.expiry with
    | some surface, some tte =>
      if tte ≤ 0 ∨ maxForwardDriftTicks * s.tickSize < |s.underlyingPrice - surface.forward| then []
      else match computeTheo quoting surface.forward tick.strike tte (sideChar tick.right) surface.params with
        | none => []
        | some theo =>
          let bid := tick.bid.getD 0
          let ask := tick.ask.getD 0
          if bid ≤ 0 ∨ ask ≤ 0 then []
          else if tick.bidSize.getD 0 < minBboSize ∨ tick.askSize.getD 0 < minBboSize then []
          else [.buy, .sell].filterMap (decideSide s tick theo bid ask gates nowMonotonicNs)
    | _, _ => []

end Corsair.Trader
