import Corsair.Native.ContractRequests

namespace Corsair.Native

open BrokerApi

-- A rejected order comes back from the gateway as Inactive.
def closed (status : OrderStatus) : Bool := status.isTerminal ∨ status = .inactive

-- What a message says about an order: a status report, or an order error for its id.
def progressed (id : ℤ) (report : Report) : InboundMsg → Report
  | .error e =>
    if 0 < e.reqId ∧ e.reqId = id ∧ isOrderError e.errorCode then { report with status := .rejected } else report
  | msg => reported id report msg

def progress (id : ℤ) (events : List AdapterEvent) : Report :=
  (messages events).foldl (progressed id) ⟨.pendingSubmit, 0⟩

section OpenOrders

variable (chrono : Chrono)

-- The reports since the last OpenOrder of an order.
def renewed (id : ℤ) (report : Report) : InboundMsg → Report
  | .openOrder o => if o.orderId = id ∧ (nativeToOpenOrder chrono o).isSome then ⟨.pendingSubmit, 0⟩ else report
  | msg => reported id report msg

def sinceEcho (id : ℤ) (events : List AdapterEvent) : Report :=
  (messages events).foldl (renewed chrono id) ⟨.pendingSubmit, 0⟩

def written (report : Report) (order : OpenOrder) : OpenOrder :=
  { order with status := report.status, filledQty := report.filled }

-- An order that was seen, and whose latest status leaves it open.
def IsOpen (id : ℤ) (events : List AdapterEvent) : Prop :=
  (lastEcho chrono id events).isSome ∧ ¬closed (progress id events).status

-- The entry such an order is due in the list.
structure Due (id : ℤ) (events : List AdapterEvent) (entry : OpenOrder) : Prop where
  isOpen : IsOpen chrono id events
  order : ∀ order, lastEcho chrono id events = some order →
    entry = { written (progress id events) order with remainingQty := entry.remainingQty }
  remaining : (entry.remainingQty : ℤ) = entry.qty - entry.filledQty

structure OpenOrdersExact (publisher : Bool) (events : List AdapterEvent) : Prop where
  each : ∀ id, IsOpen chrono id events →
    ∃ entry ∈ (Machine.after (adapterStep chrono publisher) .default events).openOrderList, Due chrono id events entry
  only : ∀ entry ∈ (Machine.after (adapterStep chrono publisher) .default events).openOrderList,
    ∃ id, Due chrono id events entry
  once : ((Machine.after (adapterStep chrono publisher) .default events).openOrderList.map (·.orderId)).Nodup

-- The order is open, filled to its size, and nothing was said about it before its last
-- OpenOrder that is not said again after it.
structure Settled (id : ℤ) (events : List AdapterEvent) (order : OpenOrder) : Prop where
  isOpen : ¬closed (progress id events).status
  whole : order.qty = (progress id events).filled
  current : sinceEcho chrono id events = progress id events

section Ids

theorem parseDigits_bounds {low high : ℤ} {negative : Bool} {value result : ℤ} {digits : List Char}
    (start : low ≤ value ∧ value ≤ high) (parsed : parseDigits low high negative value digits = .ok result) :
    low ≤ result ∧ result ≤ high := by
  induction digits generalizing value with
  | nil =>
    cases parsed
    exact start
  | cons c rest next =>
    unfold parseDigits at parsed
    split at parsed
    · dsimp only at parsed
      generalize (if negative then value * 10 - digitValue c else value * 10 + digitValue c) = step at parsed
      split at parsed
      · cases parsed
      · split at parsed
        · cases parsed
        · exact next ⟨by omega, by omega⟩ parsed
    · cases parsed

theorem parseInt_bounds {text : String} {value : ℤ} (parsed : parseInt text = .ok value) :
    -2 ^ 31 ≤ value ∧ value < 2 ^ 31 := by
  unfold parseInt at parsed
  split at parsed
  · rename_i result read
    cases parsed
    have zero : (-2 ^ 31 : ℤ) ≤ 0 ∧ (0 : ℤ) ≤ 2 ^ 31 - 1 := by decide
    have bounds : (-2 ^ 31 : ℤ) ≤ value ∧ value ≤ 2 ^ 31 - 1 := by
      unfold parseSigned at read
      split at read
      · cases read
      · cases read
      · cases read
      all_goals exact parseDigits_bounds zero read
    omega
  · cases parsed

end Ids

variable {chrono} {publisher : Bool}

theorem cached_write {msg : InboundMsg} {orders : HashMap ℤ OpenOrder} {id : ℤ} {order : Option OpenOrder}
    {report : Report} (held : orders.get id = order.map (written report)) :
    (cacheWrite chrono msg orders).get id = (echoed chrono id order msg).map (written (renewed chrono id report msg)) := by
  cases msg with
  | openOrder o =>
    simp only [cacheWrite, echoed, renewed]
    cases built : nativeToOpenOrder chrono o with
    | none => simpa using held
    | some entry =>
      dsimp only
      rw [HashMap.get_set]
      by_cases own : o.orderId = id
      · rw [if_pos own.symm, if_pos own, if_pos ⟨own, rfl⟩]
        exact congrArg some (unreported_native built).1.symm
      · rw [if_neg (Ne.symm own), if_neg own, if_neg fun both => own both.1]
        exact held
  | orderStatus o =>
    simp only [cacheWrite, echoed, renewed, reported, HashMap.get_modify]
    by_cases own : id = o.orderId
    · subst own
      rw [if_pos rfl, if_pos rfl, held, Option.map_map]
      rfl
    · rw [if_neg own, if_neg (Ne.symm own)]
      exact held
  | _ => exact held

theorem cached_event {α : Type*} {message : α → Option InboundMsg} {event : α} {orders : HashMap ℤ OpenOrder} {id : ℤ}
    {order : Option OpenOrder} {report : Report} (held : orders.get id = order.map (written report)) :
    ((message event).elim orders (cacheWrite chrono · orders)).get id =
      (([event].filterMap message).foldl (echoed chrono id) order).map
        (written (([event].filterMap message).foldl (renewed chrono id) report)) := by
  cases decoded : message event with
  | none => simpa [decoded] using held
  | some msg =>
    simp only [List.filterMap_cons, decoded, List.filterMap_nil, List.foldl_cons, List.foldl_nil]
    exact cached_write held

-- The cache shows each order as its last OpenOrder made it, with the reports since.
theorem cached_exact (events : List AdapterEvent) (id : ℤ) :
    (Machine.after (adapterStep chrono publisher) .default events).openOrders.get id =
      (lastEcho chrono id events).map (written (sinceEcho chrono id events)) := by
  refine Machine.follows (fun past (s : BrokerState) =>
    s.openOrders.get id = (lastEcho chrono id past).map (written (sinceEcho chrono id past))) ?_ rfl events
  intro past s event held
  rw [adapterStep_openOrders]
  simp only [lastEcho, sinceEcho, messages, List.filterMap_append, List.foldl_append] at held ⊢
  exact cached_event held

-- An order's id is an i32.
def KnownId (msg : InboundMsg) : Prop := ∀ o, msg = .openOrder o → -2 ^ 31 ≤ o.orderId ∧ o.orderId < 2 ^ 31

theorem parseOpenOrder_ids (fields : Frame) : Builds KnownId (parseOpenOrder fields) := by
  unfold parseOpenOrder
  refine builds_bind fun _ => builds_bind fun text => builds_read fun id parsed => ?_
  repeat (refine builds_bind fun _ => ?_)
  refine builds_pure ?_
  intro o equal
  cases equal
  exact parseInt_bounds parsed

theorem message_ids {event : AdapterEvent} {msg : InboundMsg} (decoded : event.message = some msg) : KnownId msg := by
  obtain ⟨fields, read⟩ := message_read decoded
  exact parseInbound_open parseOpenOrder_ids (fun msg other o equal => absurd equal (other o)) fields msg read

theorem wrapU64_inj {a b : ℤ} (left : -2 ^ 31 ≤ a ∧ a < 2 ^ 31) (right : -2 ^ 31 ≤ b ∧ b < 2 ^ 31)
    (same : wrapU64 a = wrapU64 b) : a = b := by
  unfold wrapU64 at same
  omega

-- A cached order carries the id of the messages that made it.
def Carries (id : ℤ) (order : Option OpenOrder) : Prop :=
  ∀ entry, order = some entry → entry.orderId = wrapU64 id ∧ -2 ^ 31 ≤ id ∧ id < 2 ^ 31

theorem lastEcho_id (events : List AdapterEvent) (id : ℤ) : Carries id (lastEcho chrono id events) := by
  refine List.foldlRecOn (messages events) (echoed chrono id) (fun order equal => by cases equal) ?_
  intro order held msg member
  obtain ⟨event, -, decoded⟩ := List.mem_filterMap.mp member
  cases msg with
  | openOrder o =>
    simp only [echoed]
    split
    · rename_i own
      cases built : nativeToOpenOrder chrono o with
      | none => exact held
      | some entry =>
        intro order equal
        cases equal
        rw [← own]
        exact ⟨(unreported_native built).2.1, message_ids decoded o rfl⟩
    · exact held
  | _ => exact held

theorem cached_id {events : List AdapterEvent} {id : ℤ} {entry : OpenOrder}
    (cached : (Machine.after (adapterStep chrono publisher) .default events).openOrders.get id = some entry) :
    entry.orderId = wrapU64 id ∧ -2 ^ 31 ≤ id ∧ id < 2 ^ 31 := by
  rw [cached_exact] at cached
  obtain ⟨order, echo, rfl⟩ := Option.map_eq_some_iff.mp cached
  exact lastEcho_id events id order echo

theorem ids_distinct (events : List AdapterEvent) :
    ((Machine.after (adapterStep chrono publisher) .default events).openOrderList.map (·.orderId)).Nodup := by
  have cached := @cached_id chrono publisher events
  unfold BrokerState.openOrderList HashMap.values
  generalize (Machine.after (adapterStep chrono publisher) .default events).openOrders = orders at *
  have ids : (orders.items.map Prod.snd).map (·.orderId) = (orders.items.map Prod.fst).map wrapU64 := by
    rw [List.map_map, List.map_map]
    exact List.map_congr_left fun p member => (cached (HashMap.mem_items.mp member)).1
  rw [ids]
  refine List.Nodup.map_on ?_ orders.nodup_keys
  intro a left b right same
  obtain ⟨⟨_, first⟩, held, rfl⟩ := List.mem_map.mp left
  obtain ⟨⟨_, second⟩, kept, rfl⟩ := List.mem_map.mp right
  exact wrapU64_inj (cached (HashMap.mem_items.mp held)).2 (cached (HashMap.mem_items.mp kept)).2 same

-- One order's entry is due exactly when the order is settled.
theorem entry_due_iff {events : List AdapterEvent} {id : ℤ} {order entry : OpenOrder}
    (echo : lastEcho chrono id events = some order)
    (cached : (Machine.after (adapterStep chrono publisher) .default events).openOrders.get id = some entry) :
    Due chrono id events entry ↔ Settled chrono id events order := by
  have none_left : entry.remainingQty = 0 :=
    cached_unfillable chrono publisher events entry (HashMap.mem_values.mpr ⟨id, cached⟩)
  rw [cached_exact, echo] at cached
  cases cached
  constructor
  · intro due
    have same := due.order order echo
    have status := congrArg OpenOrder.status same
    have filled := congrArg OpenOrder.filledQty same
    have current : sinceEcho chrono id events = progress id events := by
      change (sinceEcho chrono id events).status = (progress id events).status at status
      change (sinceEcho chrono id events).filled = (progress id events).filled at filled
      cases left : sinceEcho chrono id events
      cases right : progress id events
      simp_all
    refine ⟨due.isOpen.2, ?_, current⟩
    have remaining := due.remaining
    rw [none_left] at remaining
    change (0 : ℤ) = order.qty - (sinceEcho chrono id events).filled at remaining
    rw [current] at remaining
    omega
  · intro settled
    refine ⟨⟨by simp [echo], settled.isOpen⟩, ?_, ?_⟩
    · intro other same
      rw [echo] at same
      cases same
      rw [settled.current]
    · rw [none_left]
      change (0 : ℤ) = order.qty - (sinceEcho chrono id events).filled
      rw [settled.current, settled.whole]
      omega

theorem exact_settled {events : List AdapterEvent} (exact : OpenOrdersExact chrono publisher events) {id : ℤ}
    {order : OpenOrder} (echo : lastEcho chrono id events = some order) : Settled chrono id events order := by
  have cached := @cached_exact chrono publisher events id
  rw [echo, Option.map_some] at cached
  obtain ⟨other, due⟩ := exact.only _ (HashMap.mem_values.mpr ⟨id, cached⟩)
  obtain ⟨known, seen⟩ := Option.isSome_iff_exists.mp due.isOpen.1
  have own := lastEcho_id events id order echo
  have its := lastEcho_id events other known seen
  have same : other = id := by
    refine wrapU64_inj its.2 own.2 ?_
    rw [← its.1, ← own.1]
    exact (congrArg OpenOrder.orderId (due.order known seen)).symm
  subst same
  exact (entry_due_iff echo cached).mp due

end OpenOrders

section Gaps

def offer : Frame :=
  ["5", "7", "100", "HXE", "FOP", "20260626", "6.05", "C", "25000", "COMEX", "USD", "HXEM6 C605", "HXE", "SELL", "3",
    "LMT", "0.0285"]

def reportOf (status filled remaining : String) : Frame :=
  ["3", "7", status, filled, remaining, "0.0285", "1", "0", "0.0285", "0", "", "0"]

-- Filled, rejected, and echoed again after a fill.
def filledOffer : List AdapterEvent := [.frame 0 offer, .frame 1 (reportOf "Filled" "3" "0")]
def rejectedOffer : List AdapterEvent := [.frame 0 offer, .frame 1 ["4", "2", "7", "201", "Order rejected"]]
def echoedOffer : List AdapterEvent :=
  [.frame 0 offer, .frame 1 (reportOf "Submitted" "1" "2"), .frame 2 offer]

end Gaps

theorem open_orders_stale :
    ¬OpenOrdersExact noDates false filledOffer ∧ ¬OpenOrdersExact noDates false rejectedOffer ∧
      ¬OpenOrdersExact noDates false echoedOffer := by
  refine ⟨?_, ?_, ?_⟩
  · intro exact
    obtain ⟨order, echo⟩ := Option.isSome_iff_exists.mp
      (show (lastEcho noDates 7 filledOffer).isSome by decide +kernel)
    exact absurd (exact_settled exact echo).isOpen (by decide +kernel)
  · intro exact
    obtain ⟨order, echo⟩ := Option.isSome_iff_exists.mp
      (show (lastEcho noDates 7 rejectedOffer).isSome by decide +kernel)
    exact absurd (exact_settled exact echo).isOpen (by decide +kernel)
  · intro exact
    obtain ⟨order, echo⟩ := Option.isSome_iff_exists.mp
      (show (lastEcho noDates 7 echoedOffer).isSome by decide +kernel)
    exact absurd (exact_settled exact echo).current (by decide +kernel)

theorem open_orders_iff {chrono : Chrono} {publisher : Bool} (events : List AdapterEvent) :
    OpenOrdersExact chrono publisher events ↔
      ∀ id order, lastEcho chrono id events = some order → Settled chrono id events order := by
  have exact_entry := @cached_exact chrono publisher events
  constructor
  · intro exact id order echo
    exact exact_settled exact echo
  · intro settled
    refine ⟨?_, ?_, ids_distinct events⟩
    · intro id isOpen
      obtain ⟨order, echo⟩ := Option.isSome_iff_exists.mp isOpen.1
      have cached := exact_entry id
      rw [echo, Option.map_some] at cached
      exact ⟨_, HashMap.mem_values.mpr ⟨id, cached⟩, (entry_due_iff echo cached).mpr (settled id order echo)⟩
    · intro entry member
      obtain ⟨id, cached⟩ := HashMap.mem_values.mp member
      cases echo : lastEcho chrono id events with
      | none =>
        rw [exact_entry, echo] at cached
        cases cached
      | some order => exact ⟨id, (entry_due_iff echo cached).mpr (settled id order echo)⟩

end Corsair.Native
