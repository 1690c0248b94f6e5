import Corsair.Daemon.Machine
import Corsair.Lib.Wire

namespace Corsair.Daemon

open BrokerApi MarketData Wire

-- ipc.rs, commands. `type` is read and not used again.
def decodePlaceOrder (body : Body F64) : Decoded PlaceOrderCmd := do
  let _ ← required body "type" asStr
  let instrumentId ← required body "instrument_id" (asNat 64)
  let side ← required body "side" asStr
  let qty ← required body "qty" (asNat 32)
  let price ← required body "price" (asFloat fun n => F64.ofRat n)
  let orderType ← defaulted body "order_type" asStr "limit"
  let tif ← defaulted body "tif" asStr "GTD"
  let gtdSeconds ← optional body "gtd_seconds" (asNat 32)
  let clientOrderRef ← optional body "client_order_ref" asStr
  return { instrumentId, side, qty, price, orderType, tif, gtdSeconds, clientOrderRef }

def decodeCancelOrder (body : Body F64) : Decoded CancelOrderCmd := do
  let _ ← required body "type" asStr
  let orderId ← required body "order_id" (asNat 64)
  return { orderId }

-- ipc.rs, events. `{:?}` of a status.
def statusName : OrderStatus → String
  | .pendingSubmit => "PendingSubmit"
  | .submitted => "Submitted"
  | .filled => "Filled"
  | .cancelled => "Cancelled"
  | .rejected => "Rejected"
  | .pendingCancel => "PendingCancel"
  | .inactive => "Inactive"

def optionValue {α : Type} (value : α → Value F64) : Option α → Value F64
  | some a => value a
  | none => .nil

def orderStatusEvent (u : OrderStatusUpdate) : Body F64 :=
  [("type", .str "order_status"), ("order_id", .int u.orderId), ("status", .str (statusName u.status)),
    ("filled_qty", .int u.filledQty), ("remaining_qty", .int u.remainingQty),
    ("avg_fill_price", .float u.avgFillPrice), ("last_fill_price", optionValue .float u.lastFillPrice),
    ("timestamp_ns", .int u.timestampNs), ("reject_reason", optionValue .str u.rejectReason)]

structure ConsolidatedTick where
  expiry : String
  right : String
  strike : ℚ
  bid : Option F64
  ask : Option F64
  bidSize : Option ℤ
  askSize : Option ℤ

def ConsolidatedTick.of (ymd : NaiveDate → String) (t : OptionTick) : ConsolidatedTick where
  expiry := ymd t.expiry
  right := match t.right with
    | .call => "C"
    | .put => "P"
  strike := t.strike
  bid := none
  ask := none
  bidSize := none
  askSize := none

def ConsolidatedTick.update (entry : ConsolidatedTick) (tick : Tick) : ConsolidatedTick :=
  match tick.kind with
  | .bid => { entry with bid := tick.price }
  | .ask => { entry with ask := tick.price }
  | .bidSize => { entry with bidSize := tick.size.map Hedge.wrapI32 }
  | .askSize => { entry with askSize := tick.size.map Hedge.wrapI32 }
  | .last | .volume => entry

def tickEvent (entry : ConsolidatedTick) (tsNs : ℕ) : Body F64 :=
  [("type", .str "tick"), ("strike", .float (.finite entry.strike)), ("expiry", .str entry.expiry),
    ("right", .str entry.right), ("bid", optionValue .float entry.bid), ("ask", optionValue .float entry.ask),
    ("bid_size", optionValue .int entry.bidSize), ("ask_size", optionValue .int entry.askSize),
    ("ts_ns", .int tsNs)]

def optionMeta (md : MarketDataState) (iid : InstrumentId) : Option OptionTick :=
  (md.byInstrument.get iid).bind md.options.get

-- The publisher the dispatcher calls on each tick. Ticks of anything but a
-- registered option are passed over.
def publishTick (ymd : NaiveDate → String) (md : MarketDataState) (cache : HashMap InstrumentId ConsolidatedTick)
    (tick : Tick) : HashMap InstrumentId ConsolidatedTick × List (Body F64) :=
  match tick.kind with
  | .last | .volume => (cache, [])
  | _ => match optionMeta md tick.instrumentId with
    | none => (cache, [])
    | some t =>
      let entry := ((cache.get tick.instrumentId).getD (.of ymd t)).update tick
      (cache.set tick.instrumentId entry, [tickEvent entry tick.timestampNs])

end Corsair.Daemon
