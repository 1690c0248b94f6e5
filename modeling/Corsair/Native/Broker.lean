import Corsair.Lib.HashMap
import Corsair.Native.Decoder

namespace Corsair.Native

open BrokerApi

-- chrono's `NaiveDate::parse_from_str(text, format)`.
structure Chrono where
  parseDate : String → String → Option NaiveDate

structure SeedingProgress where
  positionsDone : Bool
  openOrdersDone : Bool
  accountDone : Bool
  deriving DecidableEq

-- A pending request is its accumulator; the waiting half of the oneshot is the
-- emission that resolves it.
structure BrokerState where
  positions : HashMap (String × ℤ) Position
  openOrders : HashMap ℤ OpenOrder
  accountValues : HashMap (String × String × String) AccountValueMsg
  pendingContractDetails : HashMap ℤ (List ContractDetailsMsg)
  pendingExecutions : HashMap ℤ (List Fill)
  pendingPlaceAcks : HashMap ℤ Unit
  tickRoutes : HashMap ℤ InstrumentId
  seeding : SeedingProgress

def BrokerState.default : BrokerState where
  positions := ∅
  openOrders := ∅
  accountValues := ∅
  pendingContractDetails := ∅
  pendingExecutions := ∅
  pendingPlaceAcks := ∅
  tickRoutes := ∅
  seeding := ⟨false, false, false⟩

-- What a routed message sends out: on a broadcast channel, to the tick
-- publisher, or to the waiter of a request.
inductive Emission where
  | fill (fill : Fill)
  | status (update : OrderStatusUpdate)
  | published (tick : Tick)
  | tick (tick : Tick)
  | error (error : BrokerError)
  | placeAck (orderId : ℤ) (result : Except BrokerError Unit)
  | contracts (reqId : ℤ) (result : Except BrokerError (List Contract))
  | executions (reqId : ℤ) (result : Except BrokerError (List Fill))

-- `as u64` of a signed integer wraps.
def wrapU64 (n : ℤ) : ℕ := (n % 2 ^ 64).toNat

def parseStatus (s : String) : OrderStatus :=
  match s with
  | "PendingSubmit" | "ApiPending" | "PreSubmitted" => .pendingSubmit
  | "Submitted" => .submitted
  | "Filled" => .filled
  | "Cancelled" | "ApiCancelled" => .cancelled
  | "PendingCancel" => .pendingCancel
  | "Inactive" => .inactive
  | _ => .inactive

def isContractError (code : ℤ) : Bool := code = 200 ∨ code = 321 ∨ code = 322

def isOrderError (code : ℤ) : Bool :=
  code = 201 ∨ code = 203 ∨ code = 434 ∨ code = 436 ∨ code = 10148 ∨ code = 10197

def errorToBrokerError (e : ErrorMsg) : BrokerError :=
  if e.errorCode = 1100 ∨ e.errorCode = 1101 ∨ e.errorCode = 1102 ∨ e.errorCode = 1300 then
    .connectionLost e.errorString
  else if e.errorCode = 100 then .rateLimited e.errorString
  else if e.errorCode = 110 ∨ e.errorCode = 200 ∨ e.errorCode = 321 ∨ e.errorCode = 322 then
    .contractNotFound e.errorString
  else .protocol (some e.errorCode) e.errorString

def parseSide (s : String) : Option Side :=
  match s with
  | "BUY" => some .buy
  | "SELL" => some .sell
  | _ => none

def parseOrderType (s : String) (aux : F64) : BrokerApi.OrderType :=
  match s with
  | "MKT" => .market
  | "LMT" => .limit
  | "STP LMT" => .stopLimit aux
  | _ => .limit

def parseTif (s : String) : TimeInForce :=
  match s with
  | "GTC" => .gtc
  | "DAY" => .day
  | "GTD" => .gtd
  | "IOC" => .ioc
  | "FOK" => .fok
  | _ => .day

def parseRight (s : String) : Option Right :=
  match s with
  | "C" | "CALL" => some .call
  | "P" | "PUT" => some .put
  | _ => none

def parseKind (s : String) : Option ContractKind :=
  match s with
  | "FUT" => some .future
  | "OPT" | "FOP" => some .option
  | _ => none

def parseExchange (s : String) : Exchange :=
  match s with
  | "COMEX" => .comex
  | "NYMEX" => .nymex
  | "CBOT" => .cbot
  | "CME" => .cme
  | _ => .other 0

def parseCurrency (s : String) : Currency :=
  match s with
  | "USD" => .usd
  | "EUR" => .eur
  | "GBP" => .gbp
  | "JPY" => .jpy
  | _ => .usd

def parseOrZero (text : String) : F64 := (parseFloat text).getD (.finite 0)

-- The contract record all three decoded messages build; only contract details
-- try a second date format.
def decodedContract (c : ContractDecoded) (expiry : NaiveDate) : Option Contract := do
  let kind ← parseKind c.secType
  return {
    instrumentId := wrapU64 c.conId
    kind
    symbol := c.symbol
    localSymbol := c.localSymbol
    expiry
    strike := if c.strike.positive then some c.strike else none
    right := parseRight c.right
    multiplier := parseOrZero c.multiplier
    exchange := parseExchange c.exchange
    currency := parseCurrency c.currency }

section Route

variable (chrono : Chrono)

def nativeToContract (cd : ContractDetailsMsg) : Option Contract :=
  let date := cd.contract.lastTradeDate
  decodedContract cd.contract
    (((chrono.parseDate date "%Y%m%d").or (chrono.parseDate date "%Y%m")).getD .epoch)

def nativeToPosition (p : PositionMsg) : Option Position := do
  let contract ← decodedContract p.contract ((chrono.parseDate p.contract.lastTradeDate "%Y%m%d").getD .epoch)
  return {
    contract
    quantity := p.position.asI32
    avgCost := p.avgCost
    realizedPnl := .finite 0
    unrealizedPnl := .finite 0 }

def nativeToOpenOrder (o : OpenOrderMsg) : Option OpenOrder := do
  let contract ← decodedContract o.contract ((chrono.parseDate o.contract.lastTradeDate "%Y%m%d").getD .epoch)
  let side ← parseSide o.action
  return {
    orderId := wrapU64 o.orderId
    contract
    side
    qty := o.totalQuantity.asU32
    orderType := parseOrderType o.orderType (.finite 0)
    price := if o.lmtPrice.isFinite ∧ o.lmtPrice.positive then some o.lmtPrice else none
    tif := parseTif o.tif
    gtdUntilUtc := none
    clientOrderRef := o.orderRef
    status := .pendingSubmit
    filledQty := 0
    remainingQty := o.remaining.asU32 }

def executionToFill (now : ℕ) (e : ExecutionMsg) : Option Fill := do
  let side ← if e.side = "BOT" then some Side.buy else if e.side = "SLD" then some Side.sell else none
  return {
    instrumentId := wrapU64 e.contract.conId
    orderId := wrapU64 e.orderId
    execId := e.execId
    side
    qty := e.shares.asU32
    price := e.price
    timestampNs := now
    commission := none }

-- Only these four resolve a place_order waiter.
def acknowledges (status : OrderStatus) : Bool :=
  match status with
  | .submitted | .filled | .cancelled | .pendingCancel => true
  | _ => false

def priceKind (tickType : ℤ) : Option TickKind :=
  if tickType = 1 then some .bid else if tickType = 2 then some .ask else if tickType = 4 then some .last else none

def sizeKind (tickType : ℤ) : Option TickKind :=
  if tickType = 0 then some .bidSize
  else if tickType = 3 then some .askSize
  else if tickType = 8 then some .volume
  else none

def sendTick (publisher : Bool) (tick : Tick) : List Emission :=
  if publisher then [.published tick, .tick tick] else [.tick tick]

def applyStatus (o : OrderStatusMsg) (entry : OpenOrder) : OpenOrder :=
  { entry with status := parseStatus o.status, filledQty := o.filled.asU32 }

def resolvePlaceAck (s : BrokerState) (orderId : ℤ) (result : Except BrokerError Unit) :
    BrokerState × List Emission :=
  ({ s with pendingPlaceAcks := s.pendingPlaceAcks.remove orderId },
    if (s.pendingPlaceAcks.get orderId).isSome then [.placeAck orderId result] else [])

def routePosition (s : BrokerState) (p : PositionMsg) : BrokerState :=
  let key := (p.account, p.contract.conId)
  if p.position.isZero then { s with positions := s.positions.remove key }
  else match nativeToPosition chrono p with
    | some pos => { s with positions := s.positions.set key pos }
    | none => s

def routeOpenOrder (s : BrokerState) (o : OpenOrderMsg) : BrokerState × List Emission :=
  let cached := match nativeToOpenOrder chrono o with
    | some entry => { s with openOrders := s.openOrders.set o.orderId entry }
    | none => s
  resolvePlaceAck cached o.orderId (.ok ())

def routeOrderStatus (now : ℕ) (s : BrokerState) (o : OrderStatusMsg) : BrokerState × List Emission :=
  let merged := { s with openOrders := s.openOrders.modify o.orderId (applyStatus o) }
  let (state, ack) :=
    if acknowledges (parseStatus o.status) then resolvePlaceAck merged o.orderId (.ok ()) else (merged, [])
  (state, ack ++ [.status {
    orderId := wrapU64 o.orderId
    status := parseStatus o.status
    filledQty := o.filled.asU32
    remainingQty := o.remaining.asU32
    avgFillPrice := o.avgFillPrice
    lastFillPrice := if o.lastFillPrice.positive then some o.lastFillPrice else none
    timestampNs := now
    rejectReason := none }])

-- A positive reqId is the reply to a reqExecutions. It goes to that request's
-- accumulator if the request is still pending and is broadcast if it is not.
def routeExecution (now : ℕ) (s : BrokerState) (e : ExecutionMsg) : BrokerState × List Emission :=
  match executionToFill now e with
  | none => (s, [])
  | some fill =>
    if 0 < e.reqId ∧ (s.pendingExecutions.get e.reqId).isSome then
      ({ s with pendingExecutions := s.pendingExecutions.modify e.reqId (· ++ [fill]) }, [])
    else (s, [.fill fill])

def routeExecutionEnd (s : BrokerState) (reqId : ℤ) : BrokerState × List Emission :=
  ({ s with pendingExecutions := s.pendingExecutions.remove reqId },
    match s.pendingExecutions.get reqId with
    | some accumulated => [.executions reqId (.ok accumulated)]
    | none => [])

def routeContractDetailsEnd (s : BrokerState) (reqId : ℤ) : BrokerState × List Emission :=
  ({ s with pendingContractDetails := s.pendingContractDetails.remove reqId },
    match s.pendingContractDetails.get reqId with
    | some accumulated => [.contracts reqId (.ok (accumulated.filterMap (nativeToContract chrono)))]
    | none => [])

def routeTick (publisher : Bool) (s : BrokerState) (reqId : ℤ) (kind : Option TickKind)
    (tick : InstrumentId → TickKind → Tick) : List Emission :=
  match kind, s.tickRoutes.get reqId with
  | some kind, some iid => sendTick publisher (tick iid kind)
  | _, _ => []

def routeError (s : BrokerState) (e : ErrorMsg) : BrokerState × List Emission :=
  let contractFails := 0 < e.reqId ∧ isContractError e.errorCode ∧ (s.pendingContractDetails.get e.reqId).isSome
  let placeFails := 0 < e.reqId ∧ isOrderError e.errorCode ∧ (s.pendingPlaceAcks.get e.reqId).isSome
  ({ s with
      pendingContractDetails :=
        if contractFails then s.pendingContractDetails.remove e.reqId else s.pendingContractDetails
      pendingPlaceAcks :=
        if placeFails then s.pendingPlaceAcks.remove e.reqId else s.pendingPlaceAcks },
    (if contractFails then [.contracts e.reqId (.error (.contractNotFound e.errorString))] else []) ++
    (if placeFails then
      [.placeAck e.reqId (.error (.orderRejected (some (wrapU64 e.reqId)) e.errorString))] else []) ++
    [.error (errorToBrokerError e)])

def route (now : ℕ) (publisher : Bool) (s : BrokerState) (msg : InboundMsg) : BrokerState × List Emission :=
  match msg with
  | .position p => (routePosition chrono s p, [])
  | .positionEnd => ({ s with seeding := { s.seeding with positionsDone := true } }, [])
  | .openOrderEnd => ({ s with seeding := { s.seeding with openOrdersDone := true } }, [])
  | .accountDownloadEnd _ => ({ s with seeding := { s.seeding with accountDone := true } }, [])
  | .accountValue a =>
    ({ s with accountValues := s.accountValues.set (a.key, a.currency, a.account) a }, [])
  | .openOrder o => routeOpenOrder chrono s o
  | .orderStatus o => routeOrderStatus now s o
  | .execution e => routeExecution now s e
  | .executionEnd reqId => routeExecutionEnd s reqId
  | .contractDetails cd =>
    ({ s with pendingContractDetails := s.pendingContractDetails.modify cd.reqId (· ++ [cd]) }, [])
  | .contractDetailsEnd reqId => routeContractDetailsEnd chrono s reqId
  | .tickPrice t => (s, routeTick publisher s t.reqId (priceKind t.tickType) fun instrumentId kind =>
      { instrumentId, kind, price := some t.price, size := none, timestampNs := now })
  | .tickSize t => (s, routeTick publisher s t.reqId (sizeKind t.tickType) fun instrumentId kind =>
      { instrumentId, kind, price := none, size := some t.size.asU64, timestampNs := now })
  | .error e => routeError s e
  | .accountUpdateTime _ | .commissionReport _ | .tickOptionComputation _ | .nextValidId _
  | .managedAccounts _ | .unparsed .. => (s, [])

-- One turn of the dispatcher task. A frame that does not parse is logged and skipped.
def dispatch (now : ℕ) (publisher : Bool) (s : BrokerState) (frame : Frame) : BrokerState × List Emission :=
  match parseInbound frame with
  | .ok msg => route chrono now publisher s msg
  | .error _ => (s, [])

theorem routeTick_sends {publisher : Bool} {s : BrokerState} {reqId : ℤ} {kind : Option TickKind}
    {tick : InstrumentId → TickKind → Tick} {emission : Emission} (sent : emission ∈ routeTick publisher s reqId kind tick) :
    ∃ t, emission = .tick t ∨ emission = .published t := by
  unfold routeTick at sent
  split at sent
  · unfold sendTick at sent
    split at sent
    · rcases List.mem_pair.mp sent with published | kept
      · exact ⟨_, .inr published⟩
      · exact ⟨_, .inl kept⟩
    · exact ⟨_, .inl (List.mem_singleton.mp sent)⟩
  · cases sent

-- No message changes the tick routes, and an account value alone the account values.
theorem route_tables (now : ℕ) (publisher : Bool) (s : BrokerState) (msg : InboundMsg) :
    (route chrono now publisher s msg).1.tickRoutes = s.tickRoutes ∧
      (route chrono now publisher s msg).1.accountValues =
        match msg with
        | .accountValue a => s.accountValues.set (a.key, a.currency, a.account) a
        | _ => s.accountValues := by
  cases msg with
  | openOrder o =>
    simp only [route, routeOpenOrder, resolvePlaceAck]
    cases nativeToOpenOrder chrono o <;> exact ⟨rfl, rfl⟩
  | orderStatus o =>
    simp only [route, routeOrderStatus, resolvePlaceAck]
    split <;> exact ⟨rfl, rfl⟩
  | position p =>
    simp only [route, routePosition]
    split
    · exact ⟨rfl, rfl⟩
    · split <;> exact ⟨rfl, rfl⟩
  | execution e =>
    simp only [route, routeExecution]
    split
    · exact ⟨rfl, rfl⟩
    · split <;> exact ⟨rfl, rfl⟩
  | _ => exact ⟨rfl, rfl⟩

end Route

def BrokerState.positionList (s : BrokerState) : List Position := s.positions.values
def BrokerState.openOrderList (s : BrokerState) : List OpenOrder := s.openOrders.values

end Corsair.Native
