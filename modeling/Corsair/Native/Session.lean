import Corsair.Lib.Machine
import Corsair.Lib.Memo
import Corsair.Native.OrderIds
import Corsair.Native.PlaceTemplate

namespace Corsair.Native

open BrokerApi Framing

-- The adapter between connect and disconnect: the client's counter, the state behind
-- the mutex, the template cache and the request-id counter.
structure Session where
  client : NativeClient
  broker : BrokerState
  placeTemplates : HashMap InstrumentId Bytes
  nextReqId : ℤ

def Session.new : Session := ⟨.new, .default, ∅, 1000⟩

-- The two tasks of the adapter, and the calls of the Broker trait up to their await on
-- an answer. A call whose time is up takes its waiter out again.
inductive SessionEvent where
  | received (fields : Frame)
  | dispatched (now : ℕ) (publisher : Bool) (fields : Frame)
  | placeOrder (req : PlaceOrderReq) (sends : Bool)
  | placeTimedOut (orderId : ℤ)
  | contractsRequested
  | contractsTimedOut (reqId : ℤ)
  | fillsRequested
  | fillsTimedOut (reqId : ℤ)
  | ticksSubscribed (instrumentId : InstrumentId)
  | ticksUnsubscribed (reqId : ℤ)

-- `ordered` is a request that came as far as the encoder, and whether its frame went out.
inductive SessionOut where
  | routed (emission : Emission)
  | ordered (orderId : ℤ) (req : PlaceOrderReq) (frame : Bytes) (sent : Bool)

namespace Session

def allocReqId (s : Session) : Session × ℤ := ({ s with nextReqId := addI32 s.nextReqId 1 }, s.nextReqId)

def setPlaceAcks (s : Session) (acks : HashMap ℤ Unit) : Session :=
  { s with broker := { s.broker with pendingPlaceAcks := acks } }

def setContractDetails (s : Session) (pending : HashMap ℤ (List ContractDetailsMsg)) : Session :=
  { s with broker := { s.broker with pendingContractDetails := pending } }

def setExecutions (s : Session) (pending : HashMap ℤ (List Fill)) : Session :=
  { s with broker := { s.broker with pendingExecutions := pending } }

def setRoutes (s : Session) (routes : HashMap ℤ InstrumentId) : Session :=
  { s with broker := { s.broker with tickRoutes := routes } }

section Calls

variable (formats : Formats) (account : String)

-- `entry(instrument_id).or_insert_with(..)`
def template (s : Session) (contract : Contract) : Bytes :=
  Memo.lookup Contract.instrumentId (contractSection formats) s.placeTemplates contract

def allocOrderId (s : Session) : Session × ℤ :=
  ({ s with client := s.client.allocOrderId.1 }, s.client.allocOrderId.2)

def awaitAck (s : Session) (orderId : ℤ) : Session := s.setPlaceAcks (s.broker.pendingPlaceAcks.set orderId ())
def dropAck (s : Session) (orderId : ℤ) : Session := s.setPlaceAcks (s.broker.pendingPlaceAcks.remove orderId)

def sendOrder (s : Session) (orderId : ℤ) (req : PlaceOrderReq) (params : PlaceOrderParams) (sends : Bool) :
    Session × List SessionOut :=
  let template := s.template formats req.contract
  let cached := { s with
    placeTemplates := Memo.insert Contract.instrumentId (contractSection formats) s.placeTemplates req.contract }
  (if sends then cached else cached.dropAck orderId,
    [.ordered orderId req (placeOrderFast formats orderId template params) sends])

-- The waiter is in before the parameters are built, and stays if they cannot be.
def placeOrder (s : Session) (req : PlaceOrderReq) (sends : Bool) : Session × List SessionOut :=
  if req.qty = 0 then (s, [])
  else if s.allocOrderId.2 ≤ 0 then (s.allocOrderId.1, [])
  else match buildPlaceParams formats req account with
    | .error _ => (s.allocOrderId.1.awaitAck s.allocOrderId.2, [])
    | .ok params => (s.allocOrderId.1.awaitAck s.allocOrderId.2).sendOrder formats s.allocOrderId.2 req params sends

end Calls

end Session

def sessionStep (chrono : Chrono) (formats : Formats) (account : String) (s : Session) :
    SessionEvent → Session × List SessionOut
  | .received fields => ({ s with client := s.client.recvFrame fields }, [])
  | .dispatched now publisher fields =>
    ({ s with broker := (dispatch chrono now publisher s.broker fields).1 },
      (dispatch chrono now publisher s.broker fields).2.map .routed)
  | .placeOrder req sends => s.placeOrder formats account req sends
  | .placeTimedOut orderId => (s.dropAck orderId, [])
  | .contractsRequested =>
    (s.allocReqId.1.setContractDetails (s.broker.pendingContractDetails.set s.allocReqId.2 []), [])
  | .contractsTimedOut reqId => (s.setContractDetails (s.broker.pendingContractDetails.remove reqId), [])
  | .fillsRequested => (s.allocReqId.1.setExecutions (s.broker.pendingExecutions.set s.allocReqId.2 []), [])
  | .fillsTimedOut reqId => (s.setExecutions (s.broker.pendingExecutions.remove reqId), [])
  | .ticksSubscribed instrumentId =>
    (s.allocReqId.1.setRoutes (s.broker.tickRoutes.set s.allocReqId.2 instrumentId), [])
  | .ticksUnsubscribed reqId => (s.setRoutes (s.broker.tickRoutes.remove reqId), [])

section Placing

variable {chrono : Chrono} {formats : Formats} {account : String}

-- A request that place_order takes as far as the encoder.
structure Encodes (formats : Formats) (account : String) (s : Session) (req : PlaceOrderReq)
    (params : PlaceOrderParams) : Prop where
  quantity : req.qty ≠ 0
  seeded : 0 < s.client.nextOrderId
  built : buildPlaceParams formats req account = .ok params

-- Everything a place_order call can do before it waits.
theorem placeOrder_cases (s : Session) (req : PlaceOrderReq) (sends : Bool) :
    (∃ params, Encodes formats account s req params ∧
      (s.placeOrder formats account req sends).2 = [.ordered s.client.nextOrderId req
        (placeOrderFast formats s.client.nextOrderId (s.template formats req.contract) params) sends] ∧
      (s.placeOrder formats account req sends).1.placeTemplates =
        Memo.insert Contract.instrumentId (contractSection formats) s.placeTemplates req.contract) ∨
    ((∀ params, ¬Encodes formats account s req params) ∧ (s.placeOrder formats account req sends).2 = [] ∧
      (s.placeOrder formats account req sends).1.placeTemplates = s.placeTemplates) := by
  unfold Session.placeOrder
  split
  · rename_i none_asked
    exact .inr ⟨fun params encodes => encodes.quantity none_asked, rfl, rfl⟩
  · rename_i quantity
    split
    · rename_i unseeded
      exact .inr ⟨fun params encodes => absurd encodes.seeded (not_lt.mpr unseeded), rfl, rfl⟩
    · rename_i seeded
      split
      · rename_i fault built
        refine .inr ⟨?_, rfl, rfl⟩
        intro params encodes
        rw [encodes.built] at built
        cases built
      · rename_i params built
        refine .inl ⟨params, ⟨quantity, not_le.mp seeded, built⟩, rfl, ?_⟩
        cases sends <;> rfl

theorem sessionStep_templates (s : Session) (event : SessionEvent) (other : ∀ req sends, event ≠ .placeOrder req sends) :
    (sessionStep chrono formats account s event).1.placeTemplates = s.placeTemplates ∧
      ∀ orderId req frame sent, .ordered orderId req frame sent ∉ (sessionStep chrono formats account s event).2 := by
  cases event with
  | placeOrder req sends => exact absurd rfl (other req sends)
  | dispatched now publisher fields =>
    refine ⟨rfl, ?_⟩
    intro orderId req frame sent member
    obtain ⟨emission, _, wrong⟩ := List.mem_map.mp member
    cases wrong
  | _ => exact ⟨rfl, fun _ _ _ _ member => nomatch member⟩

end Placing

end Corsair.Native
