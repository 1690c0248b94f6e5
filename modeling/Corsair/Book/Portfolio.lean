import Corsair.BrokerApi
import Corsair.Lib.HashMap

namespace Corsair.Book

open BrokerApi

-- market_view.rs
structure MarketView where
  underlyingPrice : String → Option ℚ
  ivFor : String → ℚ → NaiveDate → Right → Option ℚ
  currentPrice : String → ℚ → NaiveDate → Right → Option ℚ

def strikeKey (strike : ℚ) : ℤ := saturate (-2^63) (2^63 - 1) (roundHalfAway (strike * 10000))

-- position.rs
structure PositionKey where
  product : String
  strikeKey : ℤ
  expiry : NaiveDate
  right : Right
  deriving DecidableEq

structure Position where
  product : String
  strike : ℚ
  expiry : NaiveDate
  right : Right
  quantity : ℤ
  avgFillPrice : ℚ
  multiplier : ℚ
  delta : ℚ
  gamma : ℚ
  theta : ℚ
  vega : ℚ
  currentPrice : ℚ
  deriving DecidableEq

def makeKey (product : String) (strike : ℚ) (expiry : NaiveDate) (right : Right) : PositionKey :=
  ⟨product, strikeKey strike, expiry, right⟩

def Position.key (p : Position) : PositionKey := makeKey p.product p.strike p.expiry p.right

-- corsair_pricing's Black-76 greeks, and the clock that dates an expiry against now.
structure Greeks where
  delta : ℚ
  gamma : ℚ
  theta : ℚ
  vega : ℚ

structure Pricing where
  computeGreeks (f strike tte iv r : ℚ) (right : Char) (multiplier : ℚ) : Greeks
  timeToExpiryYears (expiry : NaiveDate) : ℚ

structure ProductInfo where
  product : String
  multiplier : ℚ
  defaultIv : ℚ
  deriving DecidableEq

abbrev ProductRegistry := HashMap String ProductInfo

def ProductRegistry.register (registry : ProductRegistry) (info : ProductInfo) : ProductRegistry :=
  HashMap.set registry info.product info

def ProductRegistry.products (registry : ProductRegistry) : List String := registry.keys

def ProductRegistry.multiplierFor (registry : ProductRegistry) (product : String) : Option ℚ :=
  (HashMap.get registry product).map (·.multiplier)

-- fill.rs
inductive FillOutcome where
  | opened | increased | partiallyClosed | closed | flipped | rejected (reason : String)
  deriving DecidableEq, Repr

-- aggregation.rs
@[ext]
structure PortfolioGreeks where
  netDelta : ℚ
  netTheta : ℚ
  netVega : ℚ
  netGamma : ℚ
  longCount : ℕ
  shortCount : ℕ
  grossPositions : ℕ
  deriving DecidableEq

def PortfolioGreeks.zero : PortfolioGreeks := ⟨0, 0, 0, 0, 0, 0, 0⟩

def PortfolioGreeks.add (g : PortfolioGreeks) (qty : ℤ) (delta theta vega gamma : ℚ) : PortfolioGreeks where
  netDelta := g.netDelta + delta * qty
  netTheta := g.netTheta + theta * qty
  netVega := g.netVega + vega * qty
  netGamma := g.netGamma + gamma * qty
  longCount := if 0 < qty then g.longCount + 1 else g.longCount
  shortCount := if 0 < qty then g.shortCount else if qty < 0 then g.shortCount + 1 else g.shortCount
  grossPositions := if qty ≠ 0 then g.grossPositions + 1 else g.grossPositions

def PortfolioGreeks.addPosition (g : PortfolioGreeks) (p : Position) : PortfolioGreeks :=
  g.add p.quantity p.delta p.theta p.vega p.gamma

structure AggregateResult where
  total : PortfolioGreeks
  perProduct : HashMap String PortfolioGreeks

-- portfolio.rs
structure PortfolioState where
  positions : List Position
  index : HashMap PositionKey ℕ
  registry : ProductRegistry
  fillsToday : ℕ
  spreadCaptureToday : ℚ
  spreadCaptureMidToday : ℚ
  dailyPnl : ℚ
  realizedPnlPersisted : ℚ
  deriving DecidableEq

namespace PortfolioState

def new (registry : ProductRegistry) : PortfolioState where
  positions := []
  index := ∅
  registry
  fillsToday := 0
  spreadCaptureToday := 0
  spreadCaptureMidToday := 0
  dailyPnl := 0
  realizedPnlPersisted := 0

def indexOf (positions : List Position) : HashMap PositionKey ℕ :=
  positions.zipIdx.foldl (fun index entry => index.set entry.1.key entry.2) ∅

def rebuildIndex (s : PortfolioState) : PortfolioState := { s with index := indexOf s.positions }

def replacePositions (s : PortfolioState) (positions : List Position) : PortfolioState :=
  rebuildIndex { s with positions }

def recordFillAccounting (s : PortfolioState) (quantity : ℤ) (spread spreadMid : ℚ) : PortfolioState :=
  { s with
    fillsToday := s.fillsToday + quantity.natAbs
    spreadCaptureToday := s.spreadCaptureToday + spread
    spreadCaptureMidToday := s.spreadCaptureMidToday + spreadMid }

def mergeOutcome (prevQty newQty : ℤ) : FillOutcome :=
  if (0 < prevQty ∧ 0 < newQty ∧ prevQty < newQty) ∨ (prevQty < 0 ∧ newQty < 0 ∧ newQty < prevQty) then
    .increased
  else if prevQty.sign ≠ newQty.sign ∧ prevQty.sign ≠ 0 then .flipped
  else .partiallyClosed

def mergeFill (s : PortfolioState) (idx : ℕ) (pos : Position) (quantity : ℤ) (fillPrice : ℚ) :
    PortfolioState × FillOutcome :=
  let newQty := pos.quantity + quantity
  if newQty = 0 then (rebuildIndex { s with positions := s.positions.eraseIdx idx }, .closed)
  else
    ({ s with positions := s.positions.set idx { pos with quantity := newQty, avgFillPrice := fillPrice } },
      mergeOutcome pos.quantity newQty)

def openPosition (s : PortfolioState) (key : PositionKey) (pos : Position) : PortfolioState × FillOutcome :=
  ({ s with positions := s.positions ++ [pos], index := s.index.set key s.positions.length }, .opened)

def addFill (s : PortfolioState) (product : String) (strike : ℚ) (expiry : NaiveDate) (right : Right)
    (quantity : ℤ) (fillPrice spread spreadMid : ℚ) : PortfolioState × FillOutcome :=
  if quantity = 0 then (s, .rejected "zero quantity")
  else
    let multiplier := (s.registry.multiplierFor product).getD 100
    let key := makeKey product strike expiry right
    let (filled, outcome) := match s.index.get key with
      | some idx => match s.positions[idx]? with
        | some pos => s.mergeFill idx pos quantity fillPrice
        -- `positions[idx]` would panic here; an indexed book has no such entry.
        | none => (s, .closed)
      | none => s.openPosition key {
          product, strike, expiry, right, quantity, multiplier
          avgFillPrice := fillPrice
          delta := 0, gamma := 0, theta := 0, vega := 0, currentPrice := 0 }
    (filled.recordFillAccounting quantity spread spreadMid, outcome)

def getPosition (s : PortfolioState) (key : PositionKey) : Option Position :=
  (s.index.get key).bind (s.positions[·]?)

def refreshPosition (pricing : Pricing) (registry : ProductRegistry) (market : MarketView) (p : Position) :
    Position :=
  match market.underlyingPrice p.product with
  | none => p
  | some f =>
    let tte := pricing.timeToExpiryYears p.expiry
    if f ≤ 0 ∨ tte ≤ 0 then p
    else
      let fallback := ((HashMap.get registry p.product).map (·.defaultIv)).getD (3/10)
      let iv := (market.ivFor p.product p.strike p.expiry p.right).getD fallback
      let g := pricing.computeGreeks f p.strike tte iv 0 p.right.asChar p.multiplier
      let live := (market.currentPrice p.product p.strike p.expiry p.right).filter (0 < ·)
      { p with
        delta := g.delta, gamma := g.gamma, theta := g.theta, vega := g.vega
        currentPrice := live.getD p.currentPrice }

def refreshGreeks (s : PortfolioState) (pricing : Pricing) (market : MarketView) : PortfolioState :=
  { s with positions := s.positions.map (refreshPosition pricing s.registry market) }

def groupGreeks (positions : List Position) : HashMap String PortfolioGreeks :=
  positions.foldl (fun groups p => groups.set p.product (((groups.get p.product).getD .zero).addPosition p)) ∅

def aggregate (s : PortfolioState) : AggregateResult where
  total := s.positions.foldl .addPosition .zero
  perProduct := groupGreeks s.positions

def netDelta (s : PortfolioState) : ℚ := (s.positions.map fun p : Position => p.delta * (p.quantity : ℚ)).sum
def netTheta (s : PortfolioState) : ℚ := (s.positions.map fun p : Position => p.theta * (p.quantity : ℚ)).sum
def netVega (s : PortfolioState) : ℚ := (s.positions.map fun p : Position => p.vega * (p.quantity : ℚ)).sum
def netGamma (s : PortfolioState) : ℚ := (s.positions.map fun p : Position => p.gamma * (p.quantity : ℚ)).sum

def longCount (s : PortfolioState) : ℕ := (s.positions.filter (0 < ·.quantity)).length
def shortCount (s : PortfolioState) : ℕ := (s.positions.filter (·.quantity < 0)).length
def grossPositions (s : PortfolioState) : ℕ := (s.positions.filter (·.quantity ≠ 0)).length

def deltaForProduct (s : PortfolioState) (product : String) : ℚ :=
  ((s.positions.filter (·.product = product)).map fun p : Position => p.delta * (p.quantity : ℚ)).sum

def thetaForProduct (s : PortfolioState) (product : String) : ℚ :=
  ((s.positions.filter (·.product = product)).map fun p : Position => p.theta * (p.quantity : ℚ)).sum

def vegaForProduct (s : PortfolioState) (product : String) : ℚ :=
  ((s.positions.filter (·.product = product)).map fun p : Position => p.vega * (p.quantity : ℚ)).sum

def positionPnl (market : MarketView) (p : Position) : ℚ :=
  let live := (market.currentPrice p.product p.strike p.expiry p.right).getD p.currentPrice
  if live ≤ 0 then 0 else p.quantity * (live - p.avgFillPrice) * p.multiplier

def computeMtmPnl (s : PortfolioState) (market : MarketView) : ℚ :=
  (s.positions.map (positionPnl market)).sum

theorem mergeFill_fillsToday (s : PortfolioState) (idx : ℕ) (pos : Position) (quantity : ℤ) (fillPrice : ℚ) :
    (s.mergeFill idx pos quantity fillPrice).1.fillsToday = s.fillsToday := by
  unfold mergeFill
  simp only
  split <;> rfl

theorem addFill_fillsToday (s : PortfolioState) (product : String) (strike : ℚ) (expiry : NaiveDate) (right : Right)
    (quantity : ℤ) (fillPrice spread spreadMid : ℚ) :
    (s.addFill product strike expiry right quantity fillPrice spread spreadMid).1.fillsToday =
      s.fillsToday + quantity.natAbs := by
  unfold addFill
  split
  · rename_i zero
    simp [zero]
  · simp only [recordFillAccounting]
    split
    · split
      · rw [mergeFill_fillsToday]
      · rfl
    · rfl

end PortfolioState

end Corsair.Book
