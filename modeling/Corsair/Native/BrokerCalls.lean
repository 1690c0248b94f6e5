import Corsair.Native.ContractRequests
import Corsair.Native.Reconnect

namespace Corsair.Native

open BrokerApi Framing

-- contract.rs
structure FutureQuery where
  symbol : String
  expiry : NaiveDate

structure OptionQuery where
  symbol : String
  expiry : NaiveDate
  strike : F64
  right : Right

structure ChainQuery where
  symbol : String
  kind : Option ContractKind
  minExpiry : Option NaiveDate

def dateLe (a b : NaiveDate) : Bool :=
  a.year < b.year ∨ a.year = b.year ∧ (a.month < b.month ∨ a.month = b.month ∧ a.day ≤ b.day)

-- The socket refuses the frame of a call, or takes it. `heard` is then what the
-- dispatcher handles before the caller goes on: its time is up unless an answer is
-- among that.
inductive Sending where
  | refused (e : NativeError)
  | taken (heard : List Arrival)

-- A call that has returned, with the frames dispatched while it waited.
structure CallOutcome (α : Type) where
  session : Session
  waited : List Arrival
  result : Except BrokerError α

def CallOutcome.andThen {α β : Type} (r : CallOutcome α) (f : α → Except BrokerError β) : CallOutcome β :=
  ⟨r.session, r.waited, r.result.bind f⟩

-- Whose waiter an emission answers.
def ackAnswer (orderId : ℤ) : Emission → Option (Except BrokerError Unit)
  | .placeAck other result => if other = orderId then some result else none
  | _ => none

def contractsAnswer (reqId : ℤ) : Emission → Option (Except BrokerError (List Contract))
  | .contracts other result => if other = reqId then some result else none
  | _ => none

def executionsAnswer (reqId : ℤ) : Emission → Option (Except BrokerError (List Fill))
  | .executions other result => if other = reqId then some result else none
  | _ => none

namespace Session

section Calls

variable (chrono : Chrono) (publisher : Bool) (s : Session)

def hears (heard : List Arrival) : Session :=
  { s with broker := Machine.after (arrive chrono publisher) s.broker heard }

-- `tokio::time::timeout(.., rx).await`
def awaitAnswer {α : Type} (heard : List Arrival) (answer : Emission → Option (Except BrokerError α))
    (drop : Session → Session) (timeout : BrokerError) : CallOutcome α :=
  match (Machine.emitted (arrive chrono publisher) s.broker heard).findSome? answer with
  | some result => ⟨s.hears chrono publisher heard, heard, result⟩
  | none => ⟨drop (s.hears chrono publisher heard), heard, .error timeout⟩

def placeOrderCall (formats : Formats) (account : String) (req : PlaceOrderReq) (sending : Sending) :
    CallOutcome OrderId :=
  if req.qty = 0 then ⟨s, [], .error (.invalidRequest "qty must be > 0")⟩
  else
    let (allocated, orderId) := s.allocOrderId
    if orderId ≤ 0 then
      ⟨allocated, [], .error (.internal "next_valid_id not seeded — call wait_for_bootstrap")⟩
    else match buildPlaceParams formats req account with
      | .error e => ⟨allocated.awaitAck orderId, [], .error e⟩
      | .ok params => match sending with
        | .refused e =>
          ⟨((allocated.awaitAck orderId).sendOrder formats orderId req params false).1, [], .error (mapNativeErr e)⟩
        | .taken heard =>
          (((allocated.awaitAck orderId).sendOrder formats orderId req params true).1.awaitAnswer chrono publisher heard
            (ackAnswer orderId) (·.dropAck orderId)
            (.protocol none s!"place_order ack timeout (orderId={orderId})")).andThen fun _ => .ok (wrapU64 orderId)

def recentFills (sending : Sending) : CallOutcome (List Fill) :=
  let (allocated, reqId) := s.allocReqId
  let asked := allocated.setExecutions (s.broker.pendingExecutions.set reqId [])
  match sending with
  | .refused e => ⟨asked, [], .error (mapNativeErr e)⟩
  | .taken heard =>
    asked.awaitAnswer chrono publisher heard (executionsAnswer reqId)
      (fun later => later.setExecutions (later.broker.pendingExecutions.remove reqId)) (.internal "recent_fills timeout")

-- What qualify_future, qualify_option and list_chain have in common.
def requestContracts (name : String) (sending : Sending) : CallOutcome (List Contract) :=
  let (allocated, reqId) := s.allocReqId
  let asked := allocated.setContractDetails (s.broker.pendingContractDetails.set reqId [])
  match sending with
  | .refused e => ⟨asked, [], .error (mapNativeErr e)⟩
  | .taken heard =>
    asked.awaitAnswer chrono publisher heard (contractsAnswer reqId)
      (fun later => later.setContractDetails (later.broker.pendingContractDetails.remove reqId))
      (.internal (name ++ " timeout"))

-- `swap_remove(0)` of a list that is not empty.
def firstContract (missing : String) : List Contract → Except BrokerError Contract
  | contract :: _ => .ok contract
  | [] => .error (.contractNotFound missing)

def qualifyFuture (formats : Formats) (q : FutureQuery) (sending : Sending) : CallOutcome Contract :=
  (s.requestContracts chrono publisher "qualify_future" sending).andThen
    (firstContract ("no match for " ++ q.symbol ++ " " ++ formats.date q.expiry "%Y-%m-%d"))

-- `display` is the Display of a float.
def qualifyOption (formats : Formats) (display : F64 → String) (q : OptionQuery) (sending : Sending) : CallOutcome Contract :=
  (s.requestContracts chrono publisher "qualify_option" sending).andThen
    (firstContract ("no match for " ++ q.symbol ++ " " ++ formats.date q.expiry "%Y-%m-%d" ++ " " ++ display q.strike ++
      (match q.right with
        | .call => " Call"
        | .put => " Put")))

def listChain (q : ChainQuery) (sending : Sending) : CallOutcome (List Contract) :=
  (s.requestContracts chrono publisher "list_chain" sending).andThen fun contracts =>
    .ok (match q.minExpiry with
      | some minExpiry => contracts.filter fun c => dateLe minExpiry c.expiry
      | none => contracts)

-- The handle of a subscription stands for its request id.
def subscribeTicks (instrumentId : InstrumentId) (sending : Sending) : CallOutcome ℤ :=
  let (allocated, reqId) := s.allocReqId
  let routed := allocated.setRoutes (s.broker.tickRoutes.set reqId instrumentId)
  match sending with
  | .refused e => ⟨routed, [], .error (mapNativeErr e)⟩
  | .taken _ => ⟨routed, [], .ok reqId⟩

end Calls

end Session

inductive BrokerCall where
  | placeOrder (req : PlaceOrderReq)
  | recentFills
  | qualifyFuture (q : FutureQuery)
  | qualifyOption (q : OptionQuery)
  | listChain (q : ChainQuery)
  | subscribeTicks (instrumentId : InstrumentId)

def failure? {α : Type} : Except BrokerError α → Option BrokerError
  | .error e => some e
  | .ok _ => none

structure Ended where
  session : Session
  waited : List Arrival
  error : Option BrokerError

def CallOutcome.ended {α : Type} (r : CallOutcome α) : Ended := ⟨r.session, r.waited, failure? r.result⟩

-- What the calls format with, and the account orders go to.
structure CallContext where
  chrono : Chrono
  formats : Formats
  display : F64 → String
  account : String
  publisher : Bool

def CallContext.call (a : CallContext) (s : Session) (sending : Sending) : BrokerCall → Ended
  | .placeOrder req => (s.placeOrderCall a.chrono a.publisher a.formats a.account req sending).ended
  | .recentFills => (s.recentFills a.chrono a.publisher sending).ended
  | .qualifyFuture q => (s.qualifyFuture a.chrono a.publisher a.formats q sending).ended
  | .qualifyOption q => (s.qualifyOption a.chrono a.publisher a.formats a.display q sending).ended
  | .listChain q => (s.listChain a.chrono a.publisher q sending).ended
  | .subscribeTicks instrumentId => (s.subscribeTicks instrumentId sending).ended

end Corsair.Native
