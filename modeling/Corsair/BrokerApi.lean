import Corsair.Double

namespace Corsair.BrokerApi

-- chrono's calendar date, and its UTC instant as nanoseconds since the epoch.
def leapYear (year : ℤ) : Bool := year % 4 = 0 && (year % 100 ≠ 0 || year % 400 = 0)

def daysInMonth (year : ℤ) (month : ℕ) : ℕ :=
  if month = 2 then (if leapYear year then 29 else 28)
  else if month = 4 ∨ month = 6 ∨ month = 9 ∨ month = 11 then 30
  else 31

structure NaiveDate where
  year : ℤ
  month : ℕ
  day : ℕ
  valid : (1 ≤ month ∧ month ≤ 12) ∧ (1 ≤ day ∧ day ≤ daysInMonth year month)
  deriving DecidableEq

def NaiveDate.epoch : NaiveDate := ⟨1970, 1, 1, by decide⟩

def NaiveDate.fromYmdOpt (year : ℤ) (month day : ℕ) : Option NaiveDate :=
  if valid : (1 ≤ month ∧ month ≤ 12) ∧ (1 ≤ day ∧ day ≤ daysInMonth year month) then some ⟨year, month, day, valid⟩
  else none

abbrev UtcTime := ℤ

-- contract.rs
abbrev InstrumentId := ℕ

inductive ContractKind where | future | option
  deriving DecidableEq, Repr

inductive Right where | call | put
  deriving DecidableEq, Repr

def Right.asChar : Right → Char
  | .call => 'C'
  | .put => 'P'

inductive Exchange where | cme | comex | nymex | cbot | other (code : ℕ)
  deriving DecidableEq, Repr

inductive Currency where | usd | eur | gbp | jpy
  deriving DecidableEq, Repr

structure Contract where
  instrumentId : InstrumentId
  kind : ContractKind
  symbol : String
  localSymbol : String
  expiry : NaiveDate
  strike : Option F64
  right : Option Right
  multiplier : F64
  exchange : Exchange
  currency : Currency
  deriving DecidableEq

-- orders.rs
abbrev OrderId := ℕ

inductive Side where | buy | sell
  deriving DecidableEq, Repr

inductive OrderType where
  | limit | market | stopLimit (stopPrice : F64)
  deriving DecidableEq, Repr

inductive TimeInForce where | gtc | day | gtd | ioc | fok
  deriving DecidableEq, Repr

structure PlaceOrderReq where
  contract : Contract
  side : Side
  qty : ℕ
  orderType : OrderType
  price : Option F64
  tif : TimeInForce
  gtdUntilUtc : Option UtcTime
  clientOrderRef : String
  account : Option String
  deriving DecidableEq

inductive OrderStatus where
  | pendingSubmit | submitted | filled | cancelled | rejected | pendingCancel | inactive
  deriving DecidableEq, Repr

def OrderStatus.isTerminal : OrderStatus → Bool
  | .filled | .cancelled | .rejected => true
  | _ => false

structure OrderStatusUpdate where
  orderId : OrderId
  status : OrderStatus
  filledQty : ℕ
  remainingQty : ℕ
  avgFillPrice : F64
  lastFillPrice : Option F64
  timestampNs : ℕ
  rejectReason : Option String
  deriving DecidableEq

structure OpenOrder where
  orderId : OrderId
  contract : Contract
  side : Side
  qty : ℕ
  orderType : OrderType
  price : Option F64
  tif : TimeInForce
  gtdUntilUtc : Option UtcTime
  clientOrderRef : String
  status : OrderStatus
  filledQty : ℕ
  remainingQty : ℕ
  deriving DecidableEq

-- events.rs
structure Fill where
  execId : String
  orderId : OrderId
  instrumentId : InstrumentId
  side : Side
  qty : ℕ
  price : F64
  timestampNs : ℕ
  commission : Option F64
  deriving DecidableEq

inductive ConnectionState where
  | disconnected | connecting | connected | lostConnection | reconnecting | closed
  deriving DecidableEq, Repr

structure ConnectionEvent where
  state : ConnectionState
  reason : Option String
  timestampNs : ℕ
  deriving DecidableEq

-- tick.rs
inductive TickKind where | bid | ask | last | bidSize | askSize | volume
  deriving DecidableEq, Repr

structure Tick where
  instrumentId : InstrumentId
  kind : TickKind
  price : Option F64
  size : Option ℕ
  timestampNs : ℕ
  deriving DecidableEq

-- position.rs
structure Position where
  contract : Contract
  quantity : ℤ
  avgCost : F64
  realizedPnl : F64
  unrealizedPnl : F64
  deriving DecidableEq

structure AccountSnapshot where
  netLiquidation : ℚ
  maintenanceMargin : ℚ
  initialMargin : ℚ
  buyingPower : ℚ
  realizedPnlToday : ℚ
  timestampNs : ℕ
  deriving DecidableEq

-- error.rs
inductive BrokerError where
  | connectionLost (message : String)
  | notConnected (message : String)
  | orderRejected (orderId : Option OrderId) (reason : String)
  | cancelTerminal (message : String)
  | modifyTerminal (message : String)
  | contractNotFound (message : String)
  | rateLimited (message : String)
  | account (message : String)
  | invalidRequest (message : String)
  | protocol (code : Option ℤ) (message : String)
  | internal (message : String)
  deriving DecidableEq

-- What the runtime asks of `dyn Broker` on the paths modelled here.
inductive BrokerCall where
  | placeOrder (req : PlaceOrderReq)
  | cancelOrder (id : OrderId)
  deriving DecidableEq

end Corsair.BrokerApi
