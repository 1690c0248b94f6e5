import Corsair.BrokerApi

namespace Corsair.Native

-- error.rs
inductive NativeError where
  | io (message : String)
  | lost (message : String)
  | notConnected
  | protocol (message : String)
  | serverVersionTooLow (version minimum : ℤ)
  | handshakeTimeout
  | malformed (message : String)
  deriving DecidableEq, Repr

-- A decoder either returns, fails with an error of the crate, or indexes past
-- the end of the frame. The last is a Rust panic and is kept apart.
inductive Fault where
  | native (error : NativeError)
  | panic
  deriving DecidableEq, Repr

abbrev Decoded (α : Type) := Except Fault α
abbrev Frame := List String

-- types.rs
structure ContractDecoded where
  conId : ℤ
  symbol : String
  secType : String
  lastTradeDate : String
  strike : F64
  right : String
  multiplier : String
  exchange : String
  primaryExchange : String
  currency : String
  localSymbol : String
  tradingClass : String
  deriving DecidableEq

structure PositionMsg where
  account : String
  contract : ContractDecoded
  position : F64
  avgCost : F64
  deriving DecidableEq

structure AccountValueMsg where
  key : String
  value : String
  currency : String
  account : String
  deriving DecidableEq

structure OpenOrderMsg where
  orderId : ℤ
  contract : ContractDecoded
  action : String
  totalQuantity : F64
  orderType : String
  lmtPrice : F64
  tif : String
  account : String
  orderRef : String
  status : String
  filled : F64
  remaining : F64
  deriving DecidableEq

structure OrderStatusMsg where
  orderId : ℤ
  status : String
  filled : F64
  remaining : F64
  avgFillPrice : F64
  permId : ℤ
  parentId : ℤ
  lastFillPrice : F64
  clientId : ℤ
  whyHeld : String
  mktCapPrice : F64
  deriving DecidableEq

structure ExecutionMsg where
  reqId : ℤ
  orderId : ℤ
  contract : ContractDecoded
  execId : String
  time : String
  account : String
  exchange : String
  side : String
  shares : F64
  price : F64
  permId : ℤ
  clientId : ℤ
  liquidation : ℤ
  cumQty : F64
  avgPrice : F64
  orderRef : String
  deriving DecidableEq

structure CommissionReportMsg where
  execId : String
  commission : F64
  currency : String
  realizedPnl : F64
  deriving DecidableEq

structure ContractDetailsMsg where
  reqId : ℤ
  contract : ContractDecoded
  deriving DecidableEq

structure TickPriceMsg where
  reqId : ℤ
  tickType : ℤ
  price : F64
  attribs : ℤ
  deriving DecidableEq

structure TickSizeMsg where
  reqId : ℤ
  tickType : ℤ
  size : F64
  deriving DecidableEq

structure TickOptionComputationMsg where
  reqId : ℤ
  tickType : ℤ
  tickAttrib : ℤ
  impliedVol : F64
  delta : F64
  optPrice : F64
  pvDividend : F64
  gamma : F64
  vega : F64
  theta : F64
  undPrice : F64
  deriving DecidableEq

structure ErrorMsg where
  reqId : ℤ
  errorCode : ℤ
  errorString : String
  advancedOrderRejectJson : String
  deriving DecidableEq

inductive InboundMsg where
  | position (msg : PositionMsg)
  | positionEnd
  | accountValue (msg : AccountValueMsg)
  | accountUpdateTime (time : String)
  | accountDownloadEnd (account : String)
  | openOrder (msg : OpenOrderMsg)
  | openOrderEnd
  | orderStatus (msg : OrderStatusMsg)
  | execution (msg : ExecutionMsg)
  | executionEnd (reqId : ℤ)
  | commissionReport (msg : CommissionReportMsg)
  | contractDetails (msg : ContractDetailsMsg)
  | contractDetailsEnd (reqId : ℤ)
  | tickPrice (msg : TickPriceMsg)
  | tickSize (msg : TickSizeMsg)
  | tickOptionComputation (msg : TickOptionComputationMsg)
  | error (msg : ErrorMsg)
  | nextValidId (orderId : ℤ)
  | managedAccounts (accounts : List String)
  | unparsed (typeId : ℤ) (fields : Frame)
  deriving DecidableEq

-- codec.rs, the read side
def malformed {α : Type} (message : String) : Decoded α := .error (.native (.malformed message))

def parseInt (text : String) : Decoded ℤ :=
  match parseSigned (-2^31) (2^31 - 1) text with
  | .ok value => .ok value
  | .error e => malformed s!"expected int, got {text.quote}: {e.text}"

def parseInt64 (text : String) : Decoded ℤ :=
  match parseSigned (-2^63) (2^63 - 1) text with
  | .ok value => .ok value
  | .error e => malformed s!"expected int64, got {text.quote}: {e.text}"

def parseF64 (text : String) : Decoded F64 :=
  if text = "" then .ok (.finite 0)
  else if text = "Infinite" then .ok (.infinite false)
  else match parseFloat text with
    | some value => .ok value
    | none => malformed s!"expected f64, got {text.quote}: invalid float literal"

-- decoder.rs. `field` is Rust's `fields[i]`; `fieldOr` is `fields.get(i)` with a default.
def field (fields : Frame) (i : ℕ) : Decoded String :=
  match fields[i]? with
  | some text => .ok text
  | none => .error .panic

def fieldOr (default : String) (fields : Frame) (i : ℕ) : String := (fields[i]?).getD default

def needFields (what : String) (least : ℕ) (fields : Frame) : Decoded Unit :=
  if fields.length < least then malformed s!"{what} fields={fields.length}" else .ok ()

def parseTickPrice (fields : Frame) : Decoded InboundMsg := do
  needFields "tickPrice" 6 fields
  return .tickPrice {
    reqId := ← parseInt (← field fields 2)
    tickType := ← parseInt (← field fields 3)
    price := ← parseF64 (← field fields 4)
    attribs := ← parseInt (fieldOr "0" fields 6) }

def parseTickSize (fields : Frame) : Decoded InboundMsg := do
  needFields "tickSize" 5 fields
  return .tickSize {
    reqId := ← parseInt (← field fields 2)
    tickType := ← parseInt (← field fields 3)
    size := ← parseF64 (← field fields 4) }

def parseTickOptionComputation (fields : Frame) : Decoded InboundMsg := do
  needFields "tickOptionComputation" 12 fields
  return .tickOptionComputation {
    reqId := ← parseInt (← field fields 1)
    tickType := ← parseInt (← field fields 2)
    tickAttrib := ← parseInt (← field fields 3)
    impliedVol := ← parseF64 (← field fields 4)
    delta := ← parseF64 (← field fields 5)
    optPrice := ← parseF64 (← field fields 6)
    pvDividend := ← parseF64 (← field fields 7)
    gamma := ← parseF64 (← field fields 8)
    vega := ← parseF64 (← field fields 9)
    theta := ← parseF64 (← field fields 10)
    undPrice := ← parseF64 (← field fields 11) }

def parseOrderStatus (fields : Frame) : Decoded InboundMsg := do
  needFields "orderStatus" 12 fields
  return .orderStatus {
    orderId := ← parseInt (← field fields 1)
    status := ← field fields 2
    filled := ← parseF64 (← field fields 3)
    remaining := ← parseF64 (← field fields 4)
    avgFillPrice := ← parseF64 (← field fields 5)
    permId := ← parseInt (← field fields 6)
    parentId := ← parseInt (← field fields 7)
    lastFillPrice := ← parseF64 (← field fields 8)
    clientId := ← parseInt (← field fields 9)
    whyHeld := ← field fields 10
    mktCapPrice := ← parseF64 (← field fields 11) }

def parseError (fields : Frame) : Decoded InboundMsg := do
  needFields "errMsg" 5 fields
  return .error {
    reqId := ← parseInt (← field fields 2)
    errorCode := ← parseInt (← field fields 3)
    errorString := ← field fields 4
    advancedOrderRejectJson := fieldOr "" fields 5 }

def parseAccountValue (fields : Frame) : Decoded InboundMsg := do
  needFields "accountValue" 6 fields
  return .accountValue {
    key := ← field fields 2
    value := ← field fields 3
    currency := ← field fields 4
    account := ← field fields 5 }

def parsePosition (fields : Frame) : Decoded InboundMsg := do
  needFields "position" 16 fields
  return .position {
    account := ← field fields 2
    contract := {
      conId := ← parseInt64 (← field fields 3)
      symbol := ← field fields 4
      secType := ← field fields 5
      lastTradeDate := ← field fields 6
      strike := ← parseF64 (← field fields 7)
      right := ← field fields 8
      multiplier := ← field fields 9
      exchange := ← field fields 10
      primaryExchange := ""
      currency := ← field fields 11
      localSymbol := ← field fields 12
      tradingClass := ← field fields 13 }
    position := ← parseF64 (← field fields 14)
    avgCost := ← parseF64 (← field fields 15) }

def parseContractDetails (fields : Frame) : Decoded InboundMsg := do
  needFields "contractDetails" 13 fields
  return .contractDetails {
    reqId := ← parseInt (← field fields 1)
    contract := {
      symbol := ← field fields 2
      secType := ← field fields 3
      lastTradeDate := ← field fields 4
      strike := ← parseF64 (← field fields 5)
      right := ← field fields 6
      exchange := ← field fields 7
      currency := ← field fields 8
      localSymbol := ← field fields 9
      -- field 10 is the market name
      tradingClass := ← field fields 11
      conId := ← parseInt64 (← field fields 12)
      multiplier := fieldOr "" fields 15
      primaryExchange := "" } }

def parseExecution (fields : Frame) : Decoded InboundMsg := do
  needFields "execDetails" 24 fields
  return .execution {
    reqId := ← parseInt (← field fields 2)
    orderId := ← parseInt (← field fields 3)
    contract := {
      conId := ← parseInt64 (← field fields 4)
      symbol := ← field fields 5
      secType := ← field fields 6
      lastTradeDate := ← field fields 7
      strike := ← parseF64 (← field fields 8)
      right := ← field fields 9
      multiplier := ← field fields 10
      exchange := ← field fields 11
      currency := ← field fields 12
      localSymbol := ← field fields 13
      tradingClass := ← field fields 14
      primaryExchange := "" }
    execId := ← field fields 15
    time := ← field fields 16
    account := ← field fields 17
    exchange := ← field fields 18
    side := ← field fields 19
    shares := ← parseF64 (← field fields 20)
    price := ← parseF64 (← field fields 21)
    permId := ← parseInt (← field fields 22)
    clientId := ← parseInt (← field fields 23)
    liquidation := ← parseInt (fieldOr "0" fields 24)
    cumQty := ← parseF64 (fieldOr "0" fields 25)
    avgPrice := ← parseF64 (fieldOr "0" fields 26)
    orderRef := fieldOr "" fields 27 }

def parseCommission (fields : Frame) : Decoded InboundMsg := do
  needFields "commissionReport" 6 fields
  return .commissionReport {
    execId := ← field fields 2
    commission := ← parseF64 (← field fields 3)
    currency := ← field fields 4
    realizedPnl := ← parseF64 (← field fields 5) }

-- The order body ends here for this decoder: `filled` and `remaining` are
-- constants of the parser, whatever the gateway sent after field 23.
def parseOpenOrder (fields : Frame) : Decoded InboundMsg := do
  needFields "openOrder" 17 fields
  return .openOrder {
    orderId := ← parseInt (← field fields 1)
    contract := {
      conId := ← parseInt64 (← field fields 2)
      symbol := ← field fields 3
      secType := ← field fields 4
      lastTradeDate := ← field fields 5
      strike := ← parseF64 (← field fields 6)
      right := ← field fields 7
      multiplier := ← field fields 8
      exchange := ← field fields 9
      currency := ← field fields 10
      localSymbol := ← field fields 11
      tradingClass := ← field fields 12
      primaryExchange := "" }
    action := ← field fields 13
    totalQuantity := ← parseF64 (← field fields 14)
    orderType := ← field fields 15
    lmtPrice := ← parseF64 (← field fields 16)
    tif := fieldOr "" fields 18
    account := fieldOr "" fields 20
    orderRef := fieldOr "" fields 23
    status := ""
    filled := .finite 0
    remaining := .finite 0 }

-- `split(',')` without the empty pieces
def splitCommas : List Char → List Char → List String
  | piece, [] => if piece = [] then [] else [String.ofList piece.reverse]
  | piece, ',' :: rest =>
    if piece = [] then splitCommas [] rest else String.ofList piece.reverse :: splitCommas [] rest
  | piece, c :: rest => splitCommas (c :: piece) rest

-- messages.rs gives the type ids; one not listed here has no typed parser.
def parseInbound (fields : Frame) : Decoded InboundMsg :=
  match fields with
  | [] => malformed "empty frame"
  | head :: _ => do
    let ty ← parseInt head
    match ty with
    | 1 => parseTickPrice fields
    | 2 => parseTickSize fields
    | 21 => parseTickOptionComputation fields
    | 3 => parseOrderStatus fields
    | 4 => parseError fields
    | 5 => parseOpenOrder fields
    | 6 => parseAccountValue fields
    | 7 => return .unparsed ty fields
    | 8 => return .accountUpdateTime (fieldOr "" fields 2)
    | 9 => return .nextValidId (← parseInt (fieldOr "0" fields 2))
    | 10 => parseContractDetails fields
    | 11 => parseExecution fields
    | 15 => return .managedAccounts (splitCommas [] (fieldOr "" fields 2).toList)
    | 59 => parseCommission fields
    | 61 => parsePosition fields
    | 62 => return .positionEnd
    | 53 => return .openOrderEnd
    | 54 => return .accountDownloadEnd (fieldOr "" fields 2)
    | 55 => return .executionEnd (← parseInt (fieldOr "0" fields 2))
    | _ => return .unparsed ty fields

example : parseInbound ["9", "1", "42"] = .ok (.nextValidId 42) := by decide +kernel
example : parseInbound ["15", "1", "DFP1,DUP2,DUP3"] = .ok (.managedAccounts ["DFP1", "DUP2", "DUP3"]) := by
  decide +kernel

end Corsair.Native
