import Corsair.BrokerApi
import Corsair.Lib.HashMap
import Corsair.Lib.Machine

namespace Corsair.Oms

open BrokerApi

-- key.rs
structure OurKey where
  strikeKey : ℤ
  expiry : NaiveDate
  right : Right
  side : Side
  deriving DecidableEq

-- book.rs
inductive OrderState where
  | pending
  | live
  | pendingCancel
  | terminal
  deriving DecidableEq

structure OrderRecord where
  key : OurKey
  orderId : Option OrderId
  price : F64
  qty : ℕ
  state : OrderState
  placedAt : UtcTime
  lastSendNs : ℕ
  deriving DecidableEq

def OrderRecord.isLive (rec : OrderRecord) : Bool := rec.state = .live ∨ rec.state = .pending

structure OrderBookCounters where
  places : ℕ
  cancels : ℕ
  placeAcks : ℕ
  fills : ℕ
  rejects : ℕ
  deriving DecidableEq

structure OrderBook where
  byKey : HashMap OurKey OrderRecord
  byOrderId : HashMap OrderId OurKey
  counters : OrderBookCounters

-- The state a status takes a record to; at the terminal one the record goes.
def stateOf : OrderStatus → OrderState
  | .pendingSubmit | .pendingCancel => .pending
  | .submitted => .live
  | .filled | .cancelled | .rejected | .inactive => .terminal

def OrderBookCounters.count (counters : OrderBookCounters) : OrderStatus → OrderBookCounters
  | .filled => { counters with fills := counters.fills + 1 }
  | .cancelled => { counters with cancels := counters.cancels + 1 }
  | .rejected => { counters with rejects := counters.rejects + 1 }
  | _ => counters

namespace OrderBook

def new : OrderBook := ⟨∅, ∅, ⟨0, 0, 0, 0, 0⟩⟩

def liveOrders (b : OrderBook) : List OrderRecord := b.byKey.values.filter OrderRecord.isLive

-- The id the record of a key carries.
def idOf (b : OrderBook) (key : OurKey) : Option OrderId := (b.byKey.get key).bind OrderRecord.orderId

def upsertPending (b : OrderBook) (key : OurKey) (price : F64) (qty lastSendNs : ℕ) (now : UtcTime) : OrderBook where
  byKey := b.byKey.set key ⟨key, none, price, qty, .pending, now, lastSendNs⟩
  byOrderId := match b.idOf key with
    | some oid => b.byOrderId.remove oid
    | none => b.byOrderId
  counters := { b.counters with places := b.counters.places + 1 }

def linkOrderId (b : OrderBook) (key : OurKey) (oid : OrderId) : OrderBook :=
  let acked := { b.counters with placeAcks := b.counters.placeAcks + 1 }
  match b.byKey.get key with
  | some rec =>
    ⟨b.byKey.set key { rec with orderId := some oid }, b.byOrderId.set oid key, acked⟩
  | none => { b with counters := acked }

def applyStatus (b : OrderBook) (oid : OrderId) (status : OrderStatus) : OrderBook × Bool :=
  match b.byOrderId.get oid with
  | none => (b, false)
  | some key => match b.byKey.get key with
    | none => (b, true)
    | some rec =>
      let counters := b.counters.count status
      if stateOf status = .terminal then (⟨b.byKey.remove key, b.byOrderId.remove oid, counters⟩, true)
      else ({ b with byKey := b.byKey.set key { rec with state := stateOf status }, counters }, true)

def markPendingCancel (b : OrderBook) (key : OurKey) : OrderBook :=
  { b with byKey := b.byKey.modify key fun rec => { rec with state := .pendingCancel } }

def clear (b : OrderBook) : OrderBook := { b with byKey := ∅, byOrderId := ∅ }

end OrderBook

inductive BookEvent where
  | upserted (key : OurKey) (price : F64) (qty lastSendNs : ℕ) (now : UtcTime)
  | linked (key : OurKey) (oid : OrderId)
  | status (oid : OrderId) (status : OrderStatus)
  | cancelSent (key : OurKey)
  | cleared
  deriving DecidableEq

-- The output is what apply_status returns.
def bookStep (b : OrderBook) : BookEvent → OrderBook × List Bool
  | .upserted key price qty lastSendNs now => (b.upsertPending key price qty lastSendNs now, [])
  | .linked key oid => (b.linkOrderId key oid, [])
  | .status oid status => ((b.applyStatus oid status).1, [(b.applyStatus oid status).2])
  | .cancelSent key => (b.markPendingCancel key, [])
  | .cleared => (b.clear, [])

def bookAfter (events : List BookEvent) : OrderBook := Machine.after bookStep .new events

section Steps

variable {b : OrderBook}

-- All a status can do.
inductive Applied (b : OrderBook) (oid : OrderId) (status : OrderStatus) : OrderBook × Bool → Prop where
  | unknown (missing : b.byOrderId.get oid = none) : Applied b oid status (b, false)
  | dangling (key : OurKey) (found : b.byOrderId.get oid = some key) (missing : b.byKey.get key = none) :
      Applied b oid status (b, true)
  | removed (key : OurKey) (rec : OrderRecord) (found : b.byOrderId.get oid = some key)
      (held : b.byKey.get key = some rec) (ends : stateOf status = .terminal) :
      Applied b oid status (⟨b.byKey.remove key, b.byOrderId.remove oid, b.counters.count status⟩, true)
  | moved (key : OurKey) (rec : OrderRecord) (found : b.byOrderId.get oid = some key)
      (held : b.byKey.get key = some rec) (goes : stateOf status ≠ .terminal) :
      Applied b oid status
        ({ b with byKey := b.byKey.set key { rec with state := stateOf status }, counters := b.counters.count status },
          true)

theorem applyStatus_applied (b : OrderBook) (oid : OrderId) (status : OrderStatus) :
    Applied b oid status (b.applyStatus oid status) := by
  unfold OrderBook.applyStatus
  split
  · rename_i missing
    exact .unknown missing
  · rename_i key found
    split
    · rename_i missing
      exact .dangling key found missing
    · rename_i rec held
      dsimp only
      split
      · rename_i ends
        exact .removed key rec found held ends
      · rename_i goes
        exact .moved key rec found held goes

theorem applyStatus_moved {oid : OrderId} {status : OrderStatus} {key : OurKey} {rec : OrderRecord}
    (found : b.byOrderId.get oid = some key) (held : b.byKey.get key = some rec) (goes : stateOf status ≠ .terminal) :
    (b.applyStatus oid status).1.byKey.get key = some { rec with state := stateOf status } := by
  unfold OrderBook.applyStatus
  rw [found]
  dsimp only
  rw [held]
  dsimp only
  rw [if_neg goes, HashMap.get_set, if_pos rfl]

end Steps

end Corsair.Oms
