import Corsair.Native.Broker
import Corsair.Native.Codec

namespace Corsair.Native

open BrokerApi Framing

-- Text the crate gets from other crates: ryu's shortest float, chrono's `format`.
structure Formats where
  ryu : F64 → String
  date : NaiveDate → String → String
  time : UtcTime → String → String

-- requests.rs
structure ContractRequest where
  conId : ℤ
  symbol : String
  secType : String
  lastTradeDate : String
  strike : F64
  right : String
  multiplier : String
  exchange : String
  primaryExchange : String
  currency : String
  localSymbol : String
  tradingClass : String

structure PlaceOrderParams where
  action : String
  totalQuantity : F64
  orderType : String
  lmtPrice : F64
  auxPrice : F64
  tif : String
  goodTillDate : String
  account : String
  orderRef : String
  outsideRth : Bool

def encodeInt (v : ℤ) : String := toString v
def encodeBool (v : Bool) : String := if v then "1" else "0"
def encodeUnset : String := ""

def outPlaceOrder : ℤ := 3

-- `as i64` of a u64 wraps; of a float it saturates.
def wrapI64 (n : ℕ) : ℤ := (n + 2^63) % 2^64 - 2^63
def asI64 (x : F64) : ℤ := x.saturating (-2^63) (2^63 - 1)

def exchangeToStr : Exchange → String
  | .comex => "COMEX"
  | .nymex => "NYMEX"
  | .cbot => "CBOT"
  | .cme => "CME"
  | .other _ => ""

def currencyToStr : Currency → String
  | .usd => "USD"
  | .eur => "EUR"
  | .gbp => "GBP"
  | .jpy => "JPY"

section Encoders

variable (formats : Formats)

def encodeF64 (v : F64) : String :=
  match v with
  | .infinite _ => "Infinite"
  | _ => formats.ryu v

def placeOrderContractRequest (c : Contract) : ContractRequest where
  conId := wrapI64 c.instrumentId
  symbol := c.symbol
  secType := match c.kind with
    | .future => "FUT"
    | .option => "FOP"
  lastTradeDate := formats.date c.expiry "%Y%m%d"
  strike := c.strike.getD (.finite 0)
  right := match c.right with
    | some .call => "C"
    | some .put => "P"
    | none => ""
  multiplier := toString (asI64 c.multiplier)
  exchange := exchangeToStr c.exchange
  primaryExchange := ""
  currency := currencyToStr c.currency
  localSymbol := c.localSymbol
  tradingClass := ""

def orderPrices (req : PlaceOrderReq) : Except BrokerError (String × F64 × F64) :=
  match req.orderType, req.price with
  | .limit, some price => .ok ("LMT", price, .finite 0)
  | .limit, none => .error (.invalidRequest "limit order requires price")
  | .market, _ => .ok ("MKT", .finite 0, .finite 0)
  | .stopLimit stopPrice, some price => .ok ("STP LMT", price, stopPrice)
  | .stopLimit _, none => .error (.invalidRequest "stop-limit requires limit price")

def goodTill (req : PlaceOrderReq) : Except BrokerError String :=
  match req.tif, req.gtdUntilUtc with
  | .gtd, some t => .ok (formats.time t "%Y%m%d %H:%M:%S UTC")
  | .gtd, none => .error (.invalidRequest "Gtd TIF requires gtd_until_utc")
  | _, _ => .ok ""

def buildPlaceParams (req : PlaceOrderReq) (fallbackAccount : String) : Except BrokerError PlaceOrderParams := do
  let (orderType, lmtPrice, auxPrice) ← orderPrices req
  let goodTillDate ← goodTill formats req
  return {
    action := match req.side with
      | .buy => "BUY"
      | .sell => "SELL"
    totalQuantity := .finite req.qty
    orderType, lmtPrice, auxPrice
    tif := match req.tif with
      | .gtc => "GTC"
      | .day => "DAY"
      | .gtd => "GTD"
      | .ioc => "IOC"
      | .fok => "FOK"
    goodTillDate
    account := req.account.getD fallbackAccount
    orderRef := req.clientOrderRef
    outsideRth := false }

def placeOrder (orderId : ℤ) (contract : ContractRequest) (params : PlaceOrderParams) : Bytes :=
  encodeFields [
    encodeInt outPlaceOrder, encodeInt orderId,
    encodeInt contract.conId, contract.symbol, contract.secType, contract.lastTradeDate,
    encodeF64 formats contract.strike, contract.right, contract.multiplier, contract.exchange,
    contract.primaryExchange, contract.currency, contract.localSymbol, contract.tradingClass,
    encodeUnset, encodeUnset,
    params.action, encodeF64 formats params.totalQuantity, params.orderType, encodeF64 formats params.lmtPrice,
    encodeF64 formats params.auxPrice, params.tif, encodeUnset, params.account, encodeUnset, encodeInt 0,
    params.orderRef, encodeBool true, encodeInt 0, encodeBool false, encodeBool false, encodeInt 0, encodeInt 0,
    encodeBool params.outsideRth, encodeBool false, encodeUnset, encodeF64 formats (.finite 0),
    params.goodTillDate, encodeUnset, encodeUnset, encodeUnset, encodeUnset, encodeUnset, encodeUnset, encodeUnset,
    encodeUnset,
    encodeInt (-1), encodeInt 0, encodeUnset, encodeUnset, encodeBool false, encodeUnset, encodeUnset,
    encodeBool false, encodeBool false, encodeUnset, encodeInt 0, encodeUnset, encodeUnset, encodeUnset,
    encodeUnset, encodeUnset, encodeBool false, encodeUnset, encodeUnset, encodeUnset, encodeUnset,
    encodeUnset, encodeUnset, encodeUnset, encodeUnset, encodeUnset, encodeUnset, encodeUnset, encodeUnset,
    encodeUnset, encodeUnset, encodeUnset, encodeBool false, encodeBool false, encodeUnset, encodeBool false,
    encodeUnset, encodeUnset, encodeBool false, encodeBool false,
    encodeUnset, encodeBool false, encodeUnset, encodeUnset, encodeUnset, encodeInt 0, encodeUnset, encodeUnset,
    encodeUnset, encodeUnset, encodeUnset, encodeUnset, encodeUnset, encodeUnset, encodeInt 0, encodeUnset,
    encodeUnset, encodeUnset, encodeUnset, encodeUnset, encodeUnset, encodeUnset, encodeUnset,
    encodeBool false, encodeBool false, encodeBool false, encodeUnset, encodeInt 0, encodeInt 0,
    encodeUnset, encodeUnset, encodeUnset]

-- place_template.rs. A template is the bytes of the fourteen contract fields.
def fromContract (c : ContractRequest) : Bytes :=
  payloadOf [
    encodeInt c.conId, c.symbol, c.secType, c.lastTradeDate, encodeF64 formats c.strike, c.right, c.multiplier,
    c.exchange, c.primaryExchange, c.currency, c.localSymbol, c.tradingClass, encodeUnset, encodeUnset]

-- What or_insert_with builds for a contract that is not cached yet.
def contractSection (c : Contract) : Bytes := fromContract formats (placeOrderContractRequest formats c)

def trailingBytes : Bytes :=
  payloadOf [
    encodeInt (-1), encodeInt 0, encodeUnset, encodeUnset, encodeBool false, encodeUnset, encodeUnset,
    encodeBool false, encodeBool false, encodeUnset, encodeInt 0, encodeUnset, encodeUnset, encodeUnset,
    encodeUnset, encodeUnset, encodeBool false, encodeUnset, encodeUnset, encodeUnset, encodeUnset,
    encodeUnset, encodeUnset, encodeUnset, encodeUnset, encodeUnset, encodeUnset, encodeUnset, encodeUnset,
    encodeUnset, encodeUnset, encodeUnset, encodeBool false, encodeBool false, encodeUnset, encodeBool false,
    encodeUnset, encodeUnset, encodeBool false, encodeBool false,
    encodeUnset, encodeBool false, encodeUnset, encodeUnset, encodeUnset, encodeInt 0, encodeUnset, encodeUnset,
    encodeUnset, encodeUnset, encodeUnset, encodeUnset, encodeUnset, encodeUnset, encodeInt 0, encodeUnset,
    encodeUnset, encodeUnset, encodeUnset, encodeUnset, encodeUnset, encodeUnset, encodeUnset,
    encodeBool false, encodeBool false, encodeBool false, encodeUnset, encodeInt 0, encodeInt 0,
    encodeUnset, encodeUnset, encodeUnset]

-- The order body as place_order_fast pushes it, the floats in the format of encode_f64.
def orderBody (params : PlaceOrderParams) : Bytes :=
  payloadOf [
    params.action, encodeF64 formats params.totalQuantity, params.orderType, encodeF64 formats params.lmtPrice,
    encodeF64 formats params.auxPrice, params.tif, "", params.account, "", "0", params.orderRef, "1", "0", "0", "0",
    "0", "0", if params.outsideRth then "1" else "0", "0", "", encodeF64 formats (.finite 0), params.goodTillDate,
    "", "", "", "", "", "", "", ""]

def placeOrderFast (orderId : ℤ) (template : Bytes) (params : PlaceOrderParams) : Bytes :=
  prefixed (payloadOf [encodeInt outPlaceOrder, encodeInt orderId] ++ template ++ orderBody formats params ++
    trailingBytes)

end Encoders

theorem payload_append (before after : Frame) : payloadOf (before ++ after) = payloadOf before ++ payloadOf after := by
  simp [payloadOf]

theorem prefixed_inj {left right : Bytes} : prefixed left = prefixed right ↔ left = right := by
  constructor
  · intro same
    exact (List.append_inj same (by rw [be32_length, be32_length])).2
  · rintro rfl
    rfl

section Encoders

variable {formats : Formats}

theorem place_order_split (orderId : ℤ) (contract : ContractRequest) (params : PlaceOrderParams) :
    placeOrder formats orderId contract params = placeOrderFast formats orderId (fromContract formats contract) params := by
  unfold placeOrder placeOrderFast encodeFields fromContract orderBody trailingBytes
  rw [← payload_append, ← payload_append, ← payload_append]
  rfl

-- A cached template gives the uncached frame when its bytes are this contract's own,
-- and only then.
theorem fast_frame (orderId : ℤ) (template : Bytes) (contract : ContractRequest) (params : PlaceOrderParams) :
    placeOrderFast formats orderId template params = placeOrder formats orderId contract params ↔
      template = fromContract formats contract := by
  rw [place_order_split]
  unfold placeOrderFast
  rw [prefixed_inj, List.append_left_inj, List.append_left_inj, List.append_right_inj]

end Encoders

end Corsair.Native
