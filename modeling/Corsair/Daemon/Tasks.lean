import Corsair.Hedge.Manager
import Corsair.MarketData
import Corsair.Risk.Monitor

namespace Corsair.Daemon

open BrokerApi Book Hedge MarketData Risk

-- runtime.rs
inductive RuntimeMode where | live | shadow
  deriving DecidableEq, Repr

structure Config where
  effectiveDeltaGating : Bool
  account : Option String

structure Runtime where
  mode : RuntimeMode
  config : Config
  portfolio : PortfolioState
  risk : RiskMonitor
  hedge : HedgeFanout
  marketData : MarketDataState
  account : AccountSnapshot

inductive HedgeCall where | rebalanceOnFill | rebalancePeriodic | forceFlat | flattenOnHalt
  deriving DecidableEq, Repr

-- What a task does to the outside, in order: cancels of the kill path, hedge
-- orders, calls made for the trader, and the decisions asked of a hedge manager.
inductive Call where
  | cancelResting (id : OrderId)
  | hedgeOrder (req : PlaceOrderReq)
  | trader (call : BrokerCall)
  | hedge (product : String) (call : HedgeCall)
  deriving DecidableEq

-- tasks.rs, the kill path. `opens` is the broker's answer to open_orders().
def actionable (opens : List OpenOrder) : List OrderId :=
  (opens.filter (0 < ·.remainingQty)).map (·.orderId)

def cancelAllResting (opens : Except BrokerError (List OpenOrder)) : List Call :=
  match opens with
  | .error _ => []
  | .ok opens => (actionable opens).map .cancelResting

-- Nothing but the fact of a kill is looked at; the kill type is not.
def onOutcome (opens : Except BrokerError (List OpenOrder)) (outcome : RiskCheckOutcome) : List Call :=
  match outcome with
  | .killed _ => cancelAllResting opens
  | .alreadyKilled _ | .healthy => []

-- Only the products of the aggregate take part: those that hold an option position.
def effectiveDelta (gating : Bool) (h : HedgeFanout) (product : String) (g : PortfolioGreeks) : ℚ :=
  g.netDelta + if gating then (h.hedgeQtyForProduct product : ℚ) else 0

structure Worst where
  delta : ℚ
  theta : ℚ
  vega : ℚ

def worseProduct (gating : Bool) (h : HedgeFanout) (worst : Worst) (entry : String × PortfolioGreeks) : Worst :=
  let d := effectiveDelta gating h entry.1 entry.2
  { delta := if |worst.delta| < |d| then d else worst.delta
    theta := if entry.2.netTheta < worst.theta then entry.2.netTheta else worst.theta
    vega := if |worst.vega| < |entry.2.netVega| then entry.2.netVega else worst.vega }

def worstPerProduct (gating : Bool) (h : HedgeFanout) (agg : AggregateResult) : Worst :=
  agg.perProduct.items.foldl (worseProduct gating h) ⟨0, 0, 0⟩

def riskFigures (r : Runtime) : RiskFigures :=
  let worst := worstPerProduct r.config.effectiveDeltaGating r.hedge r.portfolio.aggregate
  ⟨r.account.maintenanceMargin, worst.delta, worst.theta, worst.vega⟩

def riskCheck (r : Runtime) (dir : SentinelDir) (now : ℕ) : RiskMonitor × RiskCheckOutcome :=
  r.risk.check dir r.portfolio (riskFigures r) r.marketData.view now

def periodicRiskCheck (r : Runtime) (dir : SentinelDir) (now : ℕ) (opens : Except BrokerError (List OpenOrder)) :
    Runtime × List Call :=
  let (risk, outcome) := riskCheck r dir now
  ({ r with risk }, onOutcome opens outcome)

-- tasks.rs, hedge orders. An IOC limit a few ticks through the underlying.
def placeHedgeOrder (r : Runtime) (product : String) (isBuy : Bool) (qty : ℕ) (reason : String) : List Call :=
  match r.hedge.forProduct product with
  | none => []
  | some mgr => match mgr.hedgeContract with
    | none => []
    | some contract =>
      let f := (r.marketData.underlyingPrice product).getD 0
      if f ≤ 0 then []
      else
        let offset := mgr.cfg.iocTickOffset * mgr.cfg.hedgeTickSize
        let lmt := if isBuy then f + offset else max (f - offset) mgr.cfg.hedgeTickSize
        [.hedgeOrder {
          contract
          side := if isBuy then .buy else .sell
          qty
          orderType := .limit
          price := some (.finite lmt)
          tif := .ioc
          gtdUntilUtc := none
          clientOrderRef := "corsair_hedge_" ++ reason
          account := r.config.account }]

def executeHedge (r : Runtime) (product : String) (action : HedgeAction) : List Call :=
  match action with
  | .place isBuy qty reason _ _ => if r.mode = .live then placeHedgeOrder r product isBuy qty reason else []
  | .idle | .logOnly .. => []

-- tasks.rs, fills. Each manager is offered the fill by product name until one takes it.
def offerFill (h : HedgeFanout) (fill : Fill) : List String → HedgeFanout × Bool
  | [] => (h, false)
  | prod :: rest => match h.forProduct prod with
    | none => offerFill h fill rest
    | some mgr =>
      let (next, accepted) := mgr.applyBrokerFill fill
      if accepted then (h.forProductMut prod fun _ => next, true) else offerFill h fill rest

def managedProducts (h : HedgeFanout) : List String := h.managers.map (·.cfg.product)

def optionOf (md : MarketDataState) (instr : InstrumentId) (products : List String) :
    Option (String × OptionTick) :=
  products.findSome? fun prod =>
    ((md.optionsForProduct prod).find? (·.instrumentId = some instr)).map fun t => (prod, t)

def matchedOption (r : Runtime) (instr : InstrumentId) : Option (String × OptionTick) :=
  optionOf r.marketData instr r.portfolio.registry.products

def qtySigned (fill : Fill) : ℤ :=
  match fill.side with
  | .buy => wrapI32 fill.qty
  | .sell => -wrapI32 fill.qty

def bookFill (portfolio : PortfolioState) (product : String) (t : OptionTick) (fill : Fill) : PortfolioState :=
  (portfolio.addFill product t.strike t.expiry t.right (qtySigned fill) fill.price.exact 0 0).1

def fillCheck (r : Runtime) (now : ℕ) : RiskMonitor × RiskCheckOutcome :=
  r.risk.checkDailyPnlOnly r.portfolio r.marketData.view now

def hedgeOnFill (r : Runtime) (product : String) : Runtime × List Call :=
  match r.hedge.forProduct product with
  | none => (r, [])
  | some mgr =>
    let (next, action) := mgr.rebalanceOnFill r.portfolio
    let hedged := { r with hedge := r.hedge.forProductMut product fun _ => next }
    (hedged, .hedge product .rebalanceOnFill :: executeHedge hedged product action)

def handleFill (r : Runtime) (fill : Fill) (now : ℕ) (opens : Except BrokerError (List OpenOrder)) :
    Runtime × List Call :=
  let (hedge, accepted) := offerFill r.hedge fill (managedProducts r.hedge)
  if accepted then ({ r with hedge }, [])
  else match matchedOption r fill.instrumentId with
    | none => (r, [])
    | some (product, t) =>
      let booked := { r with portfolio := bookFill r.portfolio product t fill }
      let (risk, outcome) := fillCheck booked now
      let (hedged, calls) := hedgeOnFill { booked with risk } product
      (hedged, onOutcome opens outcome ++ calls)

-- tasks.rs, ticks, connection, rollover, greeks, account.
def pumpTick (r : Runtime) (tick : Tick) : Runtime :=
  match tick.price with
  | none => r
  | some price => match tick.kind with
    | .bid => { r with marketData :=
        r.marketData.updateBid tick.instrumentId price.exact (tick.size.getD 0) tick.timestampNs }
    | .ask => { r with marketData :=
        r.marketData.updateAsk tick.instrumentId price.exact (tick.size.getD 0) tick.timestampNs }
    | .last => { r with marketData := r.marketData.updateLast tick.instrumentId price.exact tick.timestampNs }
    | _ => r

def pumpConnection (r : Runtime) (ev : ConnectionEvent) : Runtime :=
  if ev.state = .connected then { r with risk := r.risk.clearDisconnectKill.1 } else r

def greekRefresh (pricing : Pricing) (r : Runtime) : Runtime :=
  { r with portfolio := r.portfolio.refreshGreeks pricing r.marketData.view }

def accountPoll (r : Runtime) (answer : Except BrokerError AccountSnapshot) : Runtime :=
  match answer with
  | .ok snap => { r with account := snap }
  | .error _ => r

def dailyHaltRollover (r : Runtime) (lastFiredDay : Option NaiveDate) (hour : ℕ) (today : NaiveDate) :
    Runtime × Option NaiveDate :=
  if 17 ≤ hour ∧ lastFiredDay ≠ some today then ({ r with risk := r.risk.clearDailyHalt.1 }, some today)
  else (r, lastFiredDay)

-- tasks.rs, the periodic hedge.
def reconcilePosition (h : HedgeFanout) (pos : BrokerApi.Position) : HedgeFanout :=
  if pos.contract.kind ≠ .future then h
  else
    let multiplier := if pos.contract.multiplier.positive then pos.contract.multiplier.exact else 25000
    h.forProductMut pos.contract.symbol fun mgr =>
      (mgr.reconcileWithPosition pos.quantity (pos.avgCost.exact / multiplier)).1

def reconcileHedges (h : HedgeFanout) (positions : Except BrokerError (List BrokerApi.Position)) : HedgeFanout :=
  match positions with
  | .ok positions => positions.foldl reconcilePosition h
  | .error _ => h

def rebalanceAll (portfolio : PortfolioState) (md : MarketDataState) (nowNs : ℕ) :
    HedgeFanout → List String → HedgeFanout × List (String × HedgeAction)
  | h, [] => (h, [])
  | h, prod :: rest => match h.forProduct prod with
    | none => rebalanceAll portfolio md nowNs h rest
    | some mgr =>
      let (next, action) := mgr.rebalancePeriodic portfolio ((md.underlyingPrice prod).getD 0) nowNs
      let (last, actions) := rebalanceAll portfolio md nowNs (h.forProductMut prod fun _ => next) rest
      (last, (prod, action) :: actions)

def periodicHedge (r : Runtime) (tickCount : ℕ) (positions : Except BrokerError (List BrokerApi.Position))
    (nowNs : ℕ) : Runtime × List Call :=
  let reconciled := if tickCount % 4 = 0 then reconcileHedges r.hedge positions else r.hedge
  let (hedge, actions) := rebalanceAll r.portfolio r.marketData nowNs reconciled r.portfolio.registry.products
  let hedged := { r with hedge }
  (hedged, actions.flatMap fun (prod, action) =>
    .hedge prod .rebalancePeriodic :: executeHedge hedged prod action)

-- ipc.rs
structure PlaceOrderCmd where
  instrumentId : ℕ
  side : String
  qty : ℕ
  price : F64
  orderType : String
  tif : String
  gtdSeconds : Option ℕ
  clientOrderRef : Option String
  deriving DecidableEq

structure CancelOrderCmd where
  orderId : ℕ
  deriving DecidableEq

-- What handle_place formats and reads off the clock: the month of the contract
-- symbol, a date, a strike with three decimals, and the time.
structure PlaceClock where
  yymm : String
  dateText : NaiveDate → String
  fixed3 : ℚ → String
  nowUtc : UtcTime

def placeContract (clock : PlaceClock) (instrumentId : InstrumentId) (product : String) (t : OptionTick) :
    Contract where
  instrumentId := instrumentId
  kind := .option
  symbol := "HXE" ++ clock.yymm
  localSymbol := product ++ clock.dateText t.expiry ++ toString t.right.asChar ++ clock.fixed3 t.strike
  expiry := t.expiry
  strike := some (.finite t.strike)
  right := some t.right
  multiplier := .finite 25000
  exchange := .comex
  currency := .usd

def placeTif (tif : String) : TimeInForce :=
  match tif with
  | "IOC" => .ioc
  | "DAY" => .day
  | "GTC" => .gtc
  | _ => .gtd

-- handle_place up to the broker lock: the request it is going to send. `none` as
-- the command is a body that does not decode.
def resolvePlace (r : Runtime) (clock : PlaceClock) (cmd : Option PlaceOrderCmd) : Option PlaceOrderReq := do
  let cmd ← cmd
  if r.mode = .shadow then none
  let (product, t) ← matchedOption r cmd.instrumentId
  let tif := placeTif cmd.tif
  return {
    contract := placeContract clock cmd.instrumentId product t
    side := if cmd.side = "BUY" then .buy else .sell
    qty := cmd.qty
    orderType := if cmd.orderType = "market" then .market else .limit
    price := some cmd.price
    tif
    gtdUntilUtc := if tif = .gtd then some (clock.nowUtc + 10^9 * (cmd.gtdSeconds.getD 30 : ℤ)) else none
    clientOrderRef := cmd.clientOrderRef.getD ""
    account := some (r.config.account.getD "") }

def handleCancel (r : Runtime) (cmd : Option CancelOrderCmd) : List Call :=
  match cmd with
  | some cmd => if r.mode = .shadow then [] else [.trader (.cancelOrder cmd.orderId)]
  | none => []

end Corsair.Daemon
