import Corsair.Lib.Wire
import Corsair.Trader.State

namespace Corsair.Trader

open Wire

-- messages.rs, what the trader writes.
structure PlaceOrder where
  tsNs : ℕ
  strike : ℚ
  expiry : String
  right : String
  side : String
  qty : ℤ
  price : ℚ
  orderRef : String
  deriving DecidableEq

structure CancelOrder where
  tsNs : ℕ
  orderId : ℤ
  deriving DecidableEq

inductive Command where
  | place (order : PlaceOrder)
  | cancel (order : CancelOrder)
  deriving DecidableEq

def PlaceOrder.encode (p : PlaceOrder) : Body F64 :=
  [("type", .str "place_order"), ("ts_ns", .int p.tsNs), ("strike", .float (.finite p.strike)),
    ("expiry", .str p.expiry), ("right", .str p.right), ("side", .str p.side), ("qty", .int p.qty),
    ("price", .float (.finite p.price)), ("orderRef", .str p.orderRef)]

def CancelOrder.encode (c : CancelOrder) : Body F64 :=
  [("type", .str "cancel_order"), ("ts_ns", .int c.tsNs), ("orderId", .int c.orderId)]

def Command.encode : Command → Body F64
  | .place order => order.encode
  | .cancel order => order.encode

-- messages.rs, what it reads. `serde_json::Value` has no NaN and no infinity: such
-- a float is null there.
def asReal : Value F64 → Option ℚ
  | .float (.finite x) => some x
  | .int n => some (F64.ofRat n).exact
  | _ => none

def isNull : Value F64 → Bool
  | .nil | .float (.infinite _) | .float .nan => true
  | _ => false

section Events

variable (body : Body F64)

-- A field of type Option that may be null or missing.
def optionalField {α : Type} (name : String) (read : Value F64 → Option α) : Decoded (Option α) :=
  match find body name with
  | none => .ok none
  | some v => if isNull v then .ok none else (readAs name read v).map some

structure GenericMsg where
  msgType : String
  tsNs : Option ℕ

def decodeGeneric : Decoded GenericMsg := do
  let msgType ← required body "type" asStr
  let tsNs ← optional body "ts_ns" (asNat 64)
  return { msgType, tsNs }

-- The outer message has taken `ts_ns` by then, and hands it down.
def decodeTick (tsNs : Option ℕ) : Decoded TickMsg := do
  let strike ← required body "strike" asReal
  let expiry ← required body "expiry" asStr
  let right ← required body "right" asStr
  let bid ← optionalField body "bid" asReal
  let ask ← optionalField body "ask" asReal
  let bidSize ← optionalField body "bid_size" (asInt (-2^31) (2^31 - 1))
  let askSize ← optionalField body "ask_size" (asInt (-2^31) (2^31 - 1))
  return { strike, expiry, right, bid, ask, bidSize, askSize, tsNs }

def decodeVolParams : Decoded VolParams := do
  let model ← required body "model" asStr
  let a ← optionalField body "a" asReal
  let b ← optionalField body "b" asReal
  let rho ← optionalField body "rho" asReal
  let m ← optionalField body "m" asReal
  let sigma ← optionalField body "sigma" asReal
  let alpha ← optionalField body "alpha" asReal
  let beta ← optionalField body "beta" asReal
  let nu ← optionalField body "nu" asReal
  return { model, a, b, rho, m, sigma, alpha, beta, nu }

def decodeVolSurface : Decoded VolSurfaceMsg := do
  let expiry ← required body "expiry" asStr
  let side ← required body "side" asStr
  let forward ← required body "forward" asReal
  let params ← decodeVolParams (← required body "params" asMap)
  return { expiry, side, forward, params }

def decodeUnderlyingTick : Decoded ℚ := required body "price" asReal

def decodeRiskState : Decoded RiskStateMsg := do
  let _ ← required body "margin_usd" asReal
  let marginPct ← required body "margin_pct" asReal
  let _ ← required body "options_delta" asReal
  let _ ← required body "hedge_delta" (asInt (-2^63) (2^63 - 1))
  let effectiveDelta ← required body "effective_delta" asReal
  let _ ← required body "theta" asReal
  let _ ← required body "vega" asReal
  let _ ← required body "gamma" asReal
  let _ ← required body "total_contracts" (asInt (-2^63) (2^63 - 1))
  let _ ← required body "n_positions" (asInt (-2^63) (2^63 - 1))
  return { effectiveDelta, marginPct }

def decodeOrderAck : Decoded OrderAckMsg := do
  let orderId ← optionalField body "orderId" (asInt (-2^63) (2^63 - 1))
  let status ← optionalField body "status" asStr
  let _ ← optionalField body "side" asStr
  let _ ← optionalField body "lmtPrice" asReal
  let _ ← optionalField body "orderRef" asStr
  return { orderId, status }

def decodePlaceAck : Decoded PlaceAckMsg := do
  let orderId ← required body "orderId" (asInt (-2^63) (2^63 - 1))
  let strike ← required body "strike" asReal
  let expiry ← required body "expiry" asStr
  let right ← required body "right" asStr
  let side ← required body "side" asStr
  let price ← required body "price" asReal
  return { orderId, strike, expiry, right, side, price }

-- `extra.get(name).and_then(as_str).unwrap_or(..)` and its kin.
def textField (name default : String) : String := ((find body name).bind asStr).getD default

end Events

end Corsair.Trader
