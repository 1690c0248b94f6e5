import Corsair.Native.Session

namespace Corsair.Native

open BrokerApi

def broadcastOf : SessionOut → Option Tick
  | .routed (.tick tick) => some tick
  | _ => none

-- The calls that open and close a subscription.
def subscription : SessionEvent → Bool
  | .ticksSubscribed _ | .ticksUnsubscribed _ => true
  | _ => false

-- The message a tick was made of, with the request id that message carries.
inductive TickReport : InboundMsg → ℤ → Tick → Prop where
  | price (t : TickPriceMsg) (tick : Tick) (kind : priceKind t.tickType = some tick.kind)
      (price : tick.price = some t.price) (size : tick.size = none) : TickReport (.tickPrice t) t.reqId tick
  | size (t : TickSizeMsg) (tick : Tick) (kind : sizeKind t.tickType = some tick.kind)
      (price : tick.price = none) (size : tick.size = some t.size.asU64) : TickReport (.tickSize t) t.reqId tick

theorem reported_sized {msg : InboundMsg} {reqId : ℤ} {tick : Tick} (reported : TickReport msg reqId tick) :
    tick.price = none ∨ tick.size = none := by
  cases reported with
  | price t _ kind price size => exact .inr size
  | size t _ kind price size => exact .inl price

section Reports

variable {chrono : Chrono} {formats : Formats} {account : String}

theorem sendTick_tick {publisher : Bool} {sent tick : Tick} (member : .tick tick ∈ sendTick publisher sent) :
    tick = sent := by
  unfold sendTick at member
  split at member <;> simpa using member

theorem routeTick_tick {publisher : Bool} {b : BrokerState} {reqId : ℤ} {kind : Option TickKind}
    {make : InstrumentId → TickKind → Tick} {tick : Tick} (member : .tick tick ∈ routeTick publisher b reqId kind make) :
    ∃ own id, kind = some own ∧ b.tickRoutes.get reqId = some id ∧ tick = make id own := by
  unfold routeTick at member
  split at member
  · rename_i own id routed
    exact ⟨own, id, rfl, routed, sendTick_tick member⟩
  · cases member

theorem route_tick {now : ℕ} {publisher : Bool} {b : BrokerState} {msg : InboundMsg} {tick : Tick}
    (member : .tick tick ∈ (route chrono now publisher b msg).2) :
    ∃ reqId, TickReport msg reqId tick ∧ b.tickRoutes.get reqId = some tick.instrumentId := by
  have unanswered (cached : BrokerState) (orderId : ℤ) (answer : Except BrokerError Unit) :
      .tick tick ∉ (resolvePlaceAck cached orderId answer).2 := by
    unfold resolvePlaceAck
    dsimp only
    split <;> simp
  cases msg with
  | tickPrice t =>
    obtain ⟨kind, id, own, routed, rfl⟩ := routeTick_tick member
    exact ⟨t.reqId, .price t _ own rfl rfl, routed⟩
  | tickSize t =>
    obtain ⟨kind, id, own, routed, rfl⟩ := routeTick_tick member
    exact ⟨t.reqId, .size t _ own rfl rfl, routed⟩
  | openOrder o => exact absurd member (unanswered _ _ _)
  | orderStatus o =>
    simp only [route, routeOrderStatus, List.mem_append] at member
    rcases member with answered | status
    · split at answered
      · exact absurd answered (unanswered _ _ _)
      · cases answered
    · simp at status
  | execution e =>
    simp only [route, routeExecution] at member
    split at member
    · cases member
    · split at member <;> simp at member
  | executionEnd reqId =>
    simp only [route, routeExecutionEnd] at member
    split at member <;> simp at member
  | contractDetailsEnd reqId =>
    simp only [route, routeContractDetailsEnd] at member
    split at member <;> simp at member
  | error e =>
    simp only [route, routeError, List.mem_append] at member
    rcases member with (contracts | placed) | told
    · split at contracts <;> simp at contracts
    · split at placed <;> simp at placed
    · simp at told
  | _ => cases member

-- Where a tick on the broadcast comes from.
theorem session_tick {b : Session} {event : SessionEvent} {tick : Tick}
    (member : tick ∈ (sessionStep chrono formats account b event).2.filterMap broadcastOf) :
    ∃ now publisher fields msg reqId, event = .dispatched now publisher fields ∧ parseInbound fields = .ok msg ∧
      TickReport msg reqId tick ∧ b.broker.tickRoutes.get reqId = some tick.instrumentId := by
  obtain ⟨out, sent, told⟩ := List.mem_filterMap.mp member
  have routed : out = .routed (.tick tick) := by
    cases out with
    | ordered orderId req frame went => cases told
    | routed emission =>
      cases emission with
      | tick other =>
        cases told
        rfl
      | _ => cases told
  subst routed
  cases event with
  | dispatched now publisher fields =>
    obtain ⟨emission, emitted, same⟩ := List.mem_map.mp sent
    cases same
    unfold dispatch at emitted
    cases parsed : parseInbound fields with
    | error fault =>
      rw [parsed] at emitted
      cases emitted
    | ok msg =>
      rw [parsed] at emitted
      obtain ⟨reqId, reported, held⟩ := route_tick emitted
      exact ⟨now, publisher, fields, msg, reqId, rfl, parsed, reported, held⟩
  | placeOrder req sends =>
    rcases placeOrder_cases b req sends with ⟨params, -, only, -⟩ | ⟨-, only, -⟩
    · rw [show (sessionStep chrono formats account b (.placeOrder req sends)).2 = _ from only] at sent
      simp at sent
    · rw [show (sessionStep chrono formats account b (.placeOrder req sends)).2 = _ from only] at sent
      cases sent
  | _ => cases sent

theorem session_routes (b : Session) {event : SessionEvent} (other : subscription event = false) :
    (sessionStep chrono formats account b event).1.broker.tickRoutes = b.broker.tickRoutes := by
  cases event with
  | ticksSubscribed instrumentId => cases other
  | ticksUnsubscribed reqId => cases other
  | dispatched now publisher fields =>
    simp only [sessionStep, dispatch]
    cases parseInbound fields with
    | error fault => rfl
    | ok msg => exact (route_tables chrono now publisher b.broker msg).1
  | placeOrder req sends =>
    simp only [sessionStep, Session.placeOrder]
    split
    · rfl
    · split
      · rfl
      · split
        · rfl
        · cases sends <;> rfl
  | _ => rfl

end Reports

end Corsair.Native
