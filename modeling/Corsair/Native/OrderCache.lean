import Corsair.Native.Adapter

namespace Corsair.Native

open BrokerApi

def Builds {α : Type} (P : α → Prop) (decoded : Decoded α) : Prop := ∀ value, decoded = .ok value → P value

theorem builds_bind {α β : Type} {P : β → Prop} {first : Decoded α} {rest : α → Decoded β}
    (all : ∀ a, Builds P (rest a)) : Builds P (first >>= rest) := by
  intro value returned
  cases first with
  | error fault => cases returned
  | ok a => exact all a value returned

theorem builds_read {α β : Type} {P : β → Prop} {first : Decoded α} {rest : α → Decoded β}
    (all : ∀ a, first = .ok a → Builds P (rest a)) : Builds P (first >>= rest) := by
  intro value returned
  cases first with
  | error fault => cases returned
  | ok a => exact all a rfl value returned

theorem builds_pure {α : Type} {P : α → Prop} {value : α} (held : P value) :
    Builds P (pure value : Decoded α) := by
  intro other returned
  cases returned
  exact held

-- An open-order message leaves the decoder with nothing remaining, whatever was
-- on the wire: the constant of `parseOpenOrder` is the only source of the field.
def NoneRemaining (msg : InboundMsg) : Prop := ∀ o, msg = .openOrder o → o.remaining = .finite 0

theorem parseOpenOrder_builds (fields : Frame) : Builds NoneRemaining (parseOpenOrder fields) := by
  unfold parseOpenOrder
  repeat (refine builds_bind fun _ => ?_)
  refine builds_pure ?_
  intro o equal
  cases equal
  rfl

-- What holds of every message but an open order holds of a decoded one if it holds
-- of the open orders decoded.
theorem parseInbound_open {P : InboundMsg → Prop} (own : ∀ fields, Builds P (parseOpenOrder fields))
    (others : ∀ msg, (∀ o, msg ≠ .openOrder o) → P msg) (fields : Frame) : Builds P (parseInbound fields) := by
  cases fields with
  | nil =>
    intro value returned
    cases returned
  | cons head rest =>
    refine builds_bind fun ty => ?_
    split
    case h_6 => exact own _
    all_goals
      try simp only [parseTickPrice, parseTickSize, parseTickOptionComputation, parseOrderStatus, parseError,
        parseAccountValue, parseContractDetails, parseExecution, parseCommission, parsePosition]
      repeat (refine builds_bind fun _ => ?_)
      refine builds_pure (others _ ?_)
      intro o equal
      cases equal

theorem parseInbound_builds (fields : Frame) : Builds NoneRemaining (parseInbound fields) := by
  refine parseInbound_open parseOpenOrder_builds ?_ fields
  intro msg other o equal
  exact absurd equal (other o)

structure Report where
  status : OrderStatus
  filled : ℕ
  deriving DecidableEq

def Report.working (report : Report) (qty : ℕ) : Prop := ¬report.status.isTerminal ∧ report.filled < qty

instance (report : Report) (qty : ℕ) : Decidable (report.working qty) := inferInstanceAs (Decidable (_ ∧ _))

def messages (events : List AdapterEvent) : List InboundMsg := events.filterMap AdapterEvent.message

def reported (id : ℤ) (report : Report) : InboundMsg → Report
  | .orderStatus o => if o.orderId = id then ⟨parseStatus o.status, o.filled.asU32⟩ else report
  | _ => report

def lastReport (id : ℤ) (events : List AdapterEvent) : Report :=
  (messages events).foldl (reported id) ⟨.pendingSubmit, 0⟩

def echoed (chrono : Chrono) (id : ℤ) (order : Option OpenOrder) : InboundMsg → Option OpenOrder
  | .openOrder o => if o.orderId = id then (nativeToOpenOrder chrono o).or order else order
  | _ => order

def lastEcho (chrono : Chrono) (id : ℤ) (events : List AdapterEvent) : Option OpenOrder :=
  (messages events).foldl (echoed chrono id) none

-- A cached order without what OrderStatus messages have written into it.
def unreported (entry : OpenOrder) : OpenOrder := { entry with status := .pendingSubmit, filledQty := 0 }

theorem unreported_native {chrono : Chrono} {o : OpenOrderMsg} {entry : OpenOrder}
    (built : nativeToOpenOrder chrono o = some entry) :
    unreported entry = entry ∧ entry.orderId = wrapU64 o.orderId ∧ entry.remainingQty = o.remaining.asU32 := by
  unfold nativeToOpenOrder at built
  obtain ⟨contract, -, built⟩ := Option.bind_eq_some_iff.mp built
  obtain ⟨side, -, built⟩ := Option.bind_eq_some_iff.mp built
  cases built
  exact ⟨rfl, rfl, rfl⟩

section Cache

variable (chrono : Chrono) (publisher : Bool)

-- The two messages that write the cache, and that no other one does.
def cacheWrite (msg : InboundMsg) (orders : HashMap ℤ OpenOrder) : HashMap ℤ OpenOrder :=
  match msg with
  | .openOrder o => match nativeToOpenOrder chrono o with
    | some entry => orders.set o.orderId entry
    | none => orders
  | .orderStatus o => orders.modify o.orderId (applyStatus o)
  | _ => orders

theorem route_openOrders (now : ℕ) (s : BrokerState) (msg : InboundMsg) :
    (route chrono now publisher s msg).1.openOrders = cacheWrite chrono msg s.openOrders := by
  cases msg with
  | openOrder o =>
    simp only [route, routeOpenOrder, resolvePlaceAck, cacheWrite]
    cases nativeToOpenOrder chrono o <;> rfl
  | orderStatus o =>
    simp only [route, routeOrderStatus, resolvePlaceAck, cacheWrite]
    split <;> rfl
  | position p =>
    simp only [route, routePosition, cacheWrite]
    split
    · rfl
    · split <;> rfl
  | execution e =>
    simp only [route, routeExecution, cacheWrite]
    split
    · rfl
    · split <;> rfl
  | _ => rfl

theorem unreported_cacheWrite {msg : InboundMsg} {orders : HashMap ℤ OpenOrder} {id : ℤ}
    {order : Option OpenOrder} (mirrors : (orders.get id).map unreported = order) :
    ((cacheWrite chrono msg orders).get id).map unreported = echoed chrono id order msg := by
  cases msg with
  | openOrder o =>
    simp only [cacheWrite, echoed]
    cases built : nativeToOpenOrder chrono o with
    | none => simpa using mirrors
    | some entry =>
      rw [HashMap.get_set]
      by_cases own : o.orderId = id
      · rw [if_pos own.symm, if_pos own]
        simp [(unreported_native built).1]
      · rw [if_neg (Ne.symm own), if_neg own]
        exact mirrors
  | orderStatus o =>
    simp only [cacheWrite, echoed, HashMap.get_modify]
    by_cases own : id = o.orderId
    · rw [if_pos own, ← own, ← mirrors, Option.map_map]
      rfl
    · rw [if_neg own]
      exact mirrors
  | _ => exact mirrors

theorem adapterStep_openOrders (s : BrokerState) (event : AdapterEvent) :
    (adapterStep chrono publisher s event).1.openOrders =
      event.message.elim s.openOrders (cacheWrite chrono · s.openOrders) := by
  cases event with
  | frame now fields =>
    simp only [adapterStep, dispatch, AdapterEvent.message]
    cases parsed : parseInbound fields with
    | error fault => rfl
    | ok msg => exact route_openOrders chrono publisher now s msg
  | fillsRequested reqId => rfl
  | fillsTimedOut reqId => rfl

-- The cache holds the last echo of each order, with the reports written over it.
theorem cached_follows (events : List AdapterEvent) (id : ℤ) :
    ((Machine.after (adapterStep chrono publisher) .default events).openOrders.get id).map unreported =
      lastEcho chrono id events := by
  refine Machine.follows
    (fun past (s : BrokerState) => (s.openOrders.get id).map unreported = lastEcho chrono id past) ?_ rfl events
  intro past s event mirrors
  rw [adapterStep_openOrders]
  simp only [lastEcho, messages, List.filterMap_append, List.foldl_append] at mirrors ⊢
  cases decoded : event.message with
  | none => simpa [decoded] using mirrors
  | some msg =>
    simp only [List.filterMap_cons, decoded, List.filterMap_nil, List.foldl_cons, List.foldl_nil]
    exact unreported_cacheWrite chrono mirrors

def Unfillable (id : ℤ) (order : Option OpenOrder) : Prop :=
  ∀ o, order = some o → o.orderId = wrapU64 id ∧ o.remainingQty = 0

theorem echoed_unfillable {msg : InboundMsg} (decoded : NoneRemaining msg) {id : ℤ} {order : Option OpenOrder}
    (held : Unfillable id order) : Unfillable id (echoed chrono id order msg) := by
  cases msg with
  | openOrder echo =>
    simp only [echoed]
    split
    · rename_i own
      cases built : nativeToOpenOrder chrono echo with
      | none => exact held
      | some entry =>
        intro o equal
        cases equal
        obtain ⟨-, sameId, remaining⟩ := unreported_native built
        rw [remaining, decoded echo rfl, sameId, own]
        exact ⟨rfl, by decide +kernel⟩
    · exact held
  | _ => exact held

theorem message_noneRemaining {event : AdapterEvent} {msg : InboundMsg} (decoded : event.message = some msg) :
    NoneRemaining msg := by
  obtain ⟨fields, read⟩ := message_read decoded
  exact parseInbound_builds fields msg read

theorem lastEcho_unfillable (events : List AdapterEvent) (id : ℤ) :
    Unfillable id (lastEcho chrono id events) := by
  refine List.foldlRecOn (messages events) (echoed chrono id) (fun o equal => by cases equal) ?_
  intro order held msg member
  obtain ⟨event, -, decoded⟩ := List.mem_filterMap.mp member
  exact echoed_unfillable chrono (message_noneRemaining decoded) held

theorem cached_unfillable (events : List AdapterEvent) (entry : OpenOrder)
    (cached : entry ∈ (Machine.after (adapterStep chrono publisher) .default events).openOrderList) :
    entry.remainingQty = 0 := by
  obtain ⟨id, found⟩ := HashMap.mem_values.mp cached
  have last := cached_follows chrono publisher events id
  rw [found, Option.map_some] at last
  exact (lastEcho_unfillable chrono events id _ last.symm).2

end Cache

end Corsair.Native
