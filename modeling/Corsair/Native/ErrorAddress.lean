import Corsair.Native.Session

namespace Corsair.Native

open BrokerApi Framing

-- What a positive id in an error message can stand for.
inductive Subject where
  | order (id : ℤ)
  | request (id : ℤ)
  deriving DecidableEq

def Subject.id : Subject → ℤ
  | .order id => id
  | .request id => id

-- A waiter of the adapter.
def Waits (s : BrokerState) : Subject → Prop
  | .order n => (s.pendingPlaceAcks.get n).isSome
  | .request n => (s.pendingContractDetails.get n).isSome ∨ (s.pendingExecutions.get n).isSome

-- Whose waiter an emission fails.
def failed : Emission → Option Subject
  | .placeAck n (.error _) => some (.order n)
  | .contracts n (.error _) => some (.request n)
  | .executions n (.error _) => some (.request n)
  | _ => none

-- What an error was about and whose waiter it failed.
def failure : Option Subject × SessionOut → Option (Option Subject × Subject)
  | (about, .routed emission) => (failed emission).map (about, ·)
  | (_, .ordered ..) => none

-- What one event hands an id to.
def allots (s : Session) : SessionEvent → List Subject
  | .placeOrder req _ => if req.qty ≠ 0 ∧ 0 < s.client.nextOrderId then [.order s.client.nextOrderId] else []
  | .contractsRequested | .fillsRequested | .ticksSubscribed _ => [.request s.nextReqId]
  | _ => []

-- A session under the eyes of the gateway, which knows what each error is about and
-- what the session has asked it for.
structure Watched where
  session : Session
  handed : List Subject

def Watched.new : Watched := ⟨.new, []⟩

abbrev Notice := SessionEvent × Option Subject

section Watch

variable (chrono : Chrono) (formats : Formats) (account : String)

def watch (w : Watched) (notice : Notice) : Watched × List (Option Subject × SessionOut) :=
  (⟨(sessionStep chrono formats account w.session notice.1).1, w.handed ++ allots w.session notice.1⟩,
    (sessionStep chrono formats account w.session notice.1).2.map (notice.2, ·))

end Watch

-- An error about an order or request of the session carries the id that was handed to
-- it; an error about anything else carries none of those.
def Raised (w : Watched) (notice : Notice) : Prop :=
  match notice.1 with
  | .dispatched _ _ fields => ∀ e, parseInbound fields = .ok (.error e) →
    match notice.2 with
    | some x => x.id = e.reqId ∧ x ∈ w.handed
    | none => ∀ x ∈ w.handed, x.id ≠ e.reqId
  | _ => True

-- Order ids keep out of the stretch from 1000 to `bound` that request ids come from.
def Clear (bound : ℤ) (w : Watched) (notice : Notice) : Prop :=
  match notice.1 with
  | .placeOrder req _ =>
    req.qty = 0 ∨ w.session.client.nextOrderId < 1000 ∨ bound ≤ w.session.client.nextOrderId
  | .contractsRequested | .fillsRequested | .ticksSubscribed _ => w.session.nextReqId < bound
  | _ => True

-- Nobody is failed by an error about somebody else, and no live id has two holders.
structure ErrorsAddressed (chrono : Chrono) (formats : Formats) (account : String) (run : List Notice) : Prop where
  addressed : ∀ pair ∈ (Machine.emitted (watch chrono formats account) .new run).filterMap failure,
    pair.1 = some pair.2
  live : ∀ past rest, run = past ++ rest → ∀ n,
    let s := (Machine.after (watch chrono formats account) .new past).session.broker
    ¬(Waits s (.order n) ∧ Waits s (.request n))

section Route

variable {chrono : Chrono} {now : ℕ} {publisher : Bool}

theorem removed_some {ν : Type} {map : HashMap ℤ ν} {key n : ℤ} (found : ((map.remove key).get n).isSome) :
    (map.get n).isSome := by
  rw [HashMap.get_remove] at found
  split at found
  · cases found
  · exact found

theorem modified_some {ν : Type} {map : HashMap ℤ ν} {key n : ℤ} {f : ν → ν}
    (found : ((map.modify key f).get n).isSome) : (map.get n).isSome := by
  rw [HashMap.get_modify] at found
  split at found
  · rename_i own
    subst own
    simpa using found
  · exact found

theorem resolve_waits {s : BrokerState} {orderId : ℤ} {result : Except BrokerError Unit} {x : Subject}
    (waits : Waits (resolvePlaceAck s orderId result).1 x) : Waits s x := by
  cases x with
  | order n => exact removed_some waits
  | request n => exact waits

theorem route_waits {s : BrokerState} {msg : InboundMsg} {x : Subject}
    (waits : Waits (route chrono now publisher s msg).1 x) : Waits s x := by
  cases msg with
  | openOrder o =>
    have before := resolve_waits waits
    revert before
    cases nativeToOpenOrder chrono o <;> cases x <;> exact id
  | orderStatus o =>
    simp only [route, routeOrderStatus] at waits
    split at waits
    · have before := resolve_waits waits
      cases x <;> exact before
    · cases x <;> exact waits
  | position p =>
    simp only [route, routePosition] at waits
    split at waits
    · cases x <;> exact waits
    · split at waits <;> cases x <;> exact waits
  | execution e =>
    simp only [route, routeExecution] at waits
    split at waits
    · exact waits
    · split at waits
      · cases x with
        | order n => exact waits
        | request n => exact waits.imp id modified_some
      · exact waits
  | executionEnd reqId =>
    cases x with
    | order n => exact waits
    | request n => exact waits.imp id removed_some
  | contractDetails cd =>
    cases x with
    | order n => exact waits
    | request n => exact waits.imp modified_some id
  | contractDetailsEnd reqId =>
    cases x with
    | order n => exact waits
    | request n => exact waits.imp removed_some id
  | error e =>
    simp only [route, routeError] at waits
    cases x with
    | order n =>
      simp only [Waits] at waits ⊢
      split at waits
      · exact removed_some waits
      · exact waits
    | request n =>
      refine waits.imp (fun contract => ?_) id
      simp only at contract
      split at contract
      · exact removed_some contract
      · exact contract
  | _ => cases x <;> exact waits

theorem resolve_quiet {s : BrokerState} {orderId : ℤ} {emission : Emission}
    (sent : emission ∈ (resolvePlaceAck s orderId (.ok ())).2) : failed emission = none := by
  unfold resolvePlaceAck at sent
  dsimp only at sent
  split at sent
  · rw [List.mem_singleton.mp sent]
    rfl
  · cases sent

theorem tick_quiet {s : BrokerState} {reqId : ℤ} {kind : Option TickKind} {tick : InstrumentId → TickKind → Tick}
    {emission : Emission} (sent : emission ∈ routeTick publisher s reqId kind tick) : failed emission = none := by
  obtain ⟨t, rfl | rfl⟩ := routeTick_sends sent <;> rfl

theorem route_quiet {s : BrokerState} {msg : InboundMsg} (other : ∀ e, msg ≠ .error e) {emission : Emission}
    (sent : emission ∈ (route chrono now publisher s msg).2) : failed emission = none := by
  cases msg with
  | error e => exact absurd rfl (other e)
  | openOrder o => exact resolve_quiet sent
  | orderStatus o =>
    simp only [route, routeOrderStatus] at sent
    rcases List.mem_append.mp sent with ack | status
    · split at ack
      · exact resolve_quiet ack
      · cases ack
    · rw [List.mem_singleton.mp status]
      rfl
  | execution e =>
    simp only [route, routeExecution] at sent
    split at sent
    · cases sent
    · split at sent
      · cases sent
      · rw [List.mem_singleton.mp sent]
        rfl
  | executionEnd reqId =>
    simp only [route, routeExecutionEnd] at sent
    split at sent
    · rw [List.mem_singleton.mp sent]
      rfl
    · cases sent
  | contractDetailsEnd reqId =>
    simp only [route, routeContractDetailsEnd] at sent
    split at sent
    · rw [List.mem_singleton.mp sent]
      rfl
    · cases sent
  | tickPrice t => exact tick_quiet sent
  | tickSize t => exact tick_quiet sent
  | _ => cases sent

-- Only an error fails a waiter: one that waits, under the id the error carries.
theorem route_failed {s : BrokerState} {msg : InboundMsg} {emission : Emission} {x : Subject}
    (sent : emission ∈ (route chrono now publisher s msg).2) (fails : failed emission = some x) :
    ∃ e, msg = .error e ∧ x.id = e.reqId ∧ Waits s x := by
  by_cases error : ∃ e, msg = .error e
  · obtain ⟨e, rfl⟩ := error
    refine ⟨e, rfl, ?_⟩
    simp only [route, routeError] at sent
    rcases List.mem_append.mp sent with waiter | broadcast
    · rcases List.mem_append.mp waiter with contract | place
      · split at contract
        · rename_i pending
          rw [List.mem_singleton.mp contract] at fails
          cases fails
          exact ⟨rfl, .inl pending.2.2⟩
        · cases contract
      · split at place
        · rename_i pending
          rw [List.mem_singleton.mp place] at fails
          cases fails
          exact ⟨rfl, pending.2.2⟩
        · cases place
    · rw [List.mem_singleton.mp broadcast] at fails
      cases fails
  · have silent := route_quiet (fun e same => error ⟨e, same⟩) sent
    rw [silent] at fails
    cases fails

theorem dispatch_waits {s : BrokerState} {fields : Frame} {x : Subject}
    (waits : Waits (dispatch chrono now publisher s fields).1 x) : Waits s x := by
  unfold dispatch at waits
  split at waits
  · exact route_waits waits
  · exact waits

theorem dispatch_failed {s : BrokerState} {fields : Frame} {emission : Emission} {x : Subject}
    (sent : emission ∈ (dispatch chrono now publisher s fields).2) (fails : failed emission = some x) :
    ∃ e, parseInbound fields = .ok (.error e) ∧ x.id = e.reqId ∧ Waits s x := by
  unfold dispatch at sent
  split at sent
  · rename_i msg parsed
    obtain ⟨e, rfl, own⟩ := route_failed sent fails
    exact ⟨e, parsed, own⟩
  · cases sent

end Route

section Watch

variable {chrono : Chrono} {formats : Formats} {account : String} {bound : ℤ}

structure Apart (bound : ℤ) (w : Watched) : Prop where
  low : 1000 ≤ w.session.nextReqId ∧ w.session.nextReqId ≤ bound
  requests : ∀ n, .request n ∈ w.handed → 1000 ≤ n ∧ n < bound
  orders : ∀ n, .order n ∈ w.handed → n < 1000 ∨ bound ≤ n
  waiting : ∀ x, Waits w.session.broker x → x ∈ w.handed

theorem one_holder {w : Watched} (apart : Apart bound w) {x y : Subject} (left : x ∈ w.handed) (right : y ∈ w.handed)
    (same : x.id = y.id) : x = y := by
  cases x with
  | order n =>
    cases y with
    | order m => exact congrArg Subject.order same
    | request m =>
      have above := apart.requests m right
      have clear := apart.orders n left
      change n = m at same
      omega
  | request n =>
    cases y with
    | order m =>
      have above := apart.requests n left
      have clear := apart.orders m right
      change n = m at same
      omega
    | request m => exact congrArg Subject.request same

-- A call that registers no new waiter, or registers the one its id was handed to.
theorem placeOrder_waits {s : Session} {req : PlaceOrderReq} {sends : Bool} {x : Subject}
    (waits : Waits (s.placeOrder formats account req sends).1.broker x) :
    Waits s.broker x ∨ x ∈ allots s (.placeOrder req sends) := by
  have acked : ∀ acks, Waits ({ s.broker with pendingPlaceAcks := acks }) x →
      (∀ n, (acks.get n).isSome → (s.broker.pendingPlaceAcks.get n).isSome ∨ n = s.client.nextOrderId) →
      req.qty ≠ 0 → 0 < s.client.nextOrderId → Waits s.broker x ∨ x ∈ allots s (.placeOrder req sends) := by
    intro acks waiting from_set quantity seeded
    cases x with
    | request n => exact .inl waiting
    | order n =>
      rcases from_set n waiting with before | own
      · exact .inl before
      · right
        rw [own, allots, if_pos ⟨quantity, seeded⟩]
        exact List.mem_singleton.mpr rfl
  have added : ∀ n, ((s.broker.pendingPlaceAcks.set s.client.nextOrderId ()).get n).isSome →
      (s.broker.pendingPlaceAcks.get n).isSome ∨ n = s.client.nextOrderId := by
    intro n found
    rw [HashMap.get_set] at found
    split at found
    · exact .inr ‹_›
    · exact .inl found
  unfold Session.placeOrder at waits
  split at waits
  · exact .inl waits
  · rename_i quantity
    split at waits
    · exact .inl waits
    · rename_i seeded
      have positive : 0 < s.client.nextOrderId := not_le.mp seeded
      split at waits
      · exact acked _ waits added quantity positive
      · cases sends with
        | true => exact acked _ waits added quantity positive
        | false => exact acked _ waits (fun n found => added n (removed_some found)) quantity positive

theorem sessionStep_waits {s : Session} {event : SessionEvent} {x : Subject}
    (waits : Waits (sessionStep chrono formats account s event).1.broker x) : Waits s.broker x ∨ x ∈ allots s event := by
  cases event with
  | dispatched now publisher fields => exact .inl (dispatch_waits waits)
  | placeOrder req sends => exact placeOrder_waits waits
  | placeTimedOut orderId =>
    cases x with
    | order n => exact .inl (removed_some waits)
    | request n => exact .inl waits
  | contractsRequested =>
    cases x with
    | order n => exact .inl waits
    | request n =>
      rcases waits with contract | execution
      · simp only [sessionStep, Session.setContractDetails, Session.allocReqId, HashMap.get_set] at contract
        split at contract
        · rename_i own
          exact .inr (own ▸ List.mem_singleton.mpr rfl)
        · exact .inl (.inl contract)
      · exact .inl (.inr execution)
  | contractsTimedOut reqId =>
    cases x with
    | order n => exact .inl waits
    | request n => exact .inl (waits.imp removed_some id)
  | fillsRequested =>
    cases x with
    | order n => exact .inl waits
    | request n =>
      rcases waits with contract | execution
      · exact .inl (.inl contract)
      · simp only [sessionStep, Session.setExecutions, Session.allocReqId, HashMap.get_set] at execution
        split at execution
        · rename_i own
          exact .inr (own ▸ List.mem_singleton.mpr rfl)
        · exact .inl (.inr execution)
  | fillsTimedOut reqId =>
    cases x with
    | order n => exact .inl waits
    | request n => exact .inl (waits.imp id removed_some)
  | _ => cases x <;> exact .inl waits

theorem sessionStep_reqId (s : Session) (event : SessionEvent) :
    (sessionStep chrono formats account s event).1.nextReqId = s.nextReqId ∨
      (allots s event = [.request s.nextReqId] ∧
        (sessionStep chrono formats account s event).1.nextReqId = addI32 s.nextReqId 1) := by
  cases event with
  | placeOrder req sends =>
    left
    simp only [sessionStep, Session.placeOrder]
    split
    · rfl
    · split
      · rfl
      · split
        · rfl
        · cases sends <;> rfl
  | contractsRequested => exact .inr ⟨rfl, rfl⟩
  | fillsRequested => exact .inr ⟨rfl, rfl⟩
  | ticksSubscribed instrumentId => exact .inr ⟨rfl, rfl⟩
  | _ => exact .inl rfl

-- What an event hands out is the value of its own counter, which the condition bounds.
theorem allots_clear {w : Watched} {notice : Notice} (clear : Clear bound w notice) {x : Subject}
    (given : x ∈ allots w.session notice.1) :
    (x = .request w.session.nextReqId ∧ w.session.nextReqId < bound) ∨
      ∃ n, x = .order n ∧ (n < 1000 ∨ bound ≤ n) := by
  obtain ⟨event, about⟩ := notice
  cases event with
  | placeOrder req sends =>
    simp only [allots] at given
    split at given
    · rename_i taken
      rcases clear with zero | outside
      · exact absurd zero taken.1
      · exact .inr ⟨_, List.mem_singleton.mp given, outside⟩
    · cases given
  | contractsRequested => exact .inl ⟨List.mem_singleton.mp given, clear⟩
  | fillsRequested => exact .inl ⟨List.mem_singleton.mp given, clear⟩
  | ticksSubscribed instrumentId => exact .inl ⟨List.mem_singleton.mp given, clear⟩
  | _ => cases given

theorem watch_apart (small : bound ≤ i32Max) {w : Watched} (apart : Apart bound w) {notice : Notice}
    (clear : Clear bound w notice) : Apart bound (watch chrono formats account w notice).1 := by
  refine ⟨?_, ?_, ?_, ?_⟩
  · have low := apart.low
    rcases @sessionStep_reqId chrono formats account w.session notice.1 with same | taken
    · change 1000 ≤ (sessionStep chrono formats account w.session notice.1).1.nextReqId ∧
        (sessionStep chrono formats account w.session notice.1).1.nextReqId ≤ bound
      rw [same]
      exact low
    · obtain ⟨given, next⟩ := taken
      have below : w.session.nextReqId < bound := by
        rcases allots_clear clear (given ▸ List.mem_singleton.mpr rfl) with request | order
        · exact request.2
        · obtain ⟨n, wrong, _⟩ := order
          cases wrong
      change 1000 ≤ (sessionStep chrono formats account w.session notice.1).1.nextReqId ∧
        (sessionStep chrono formats account w.session notice.1).1.nextReqId ≤ bound
      rw [next]
      unfold i32Max at small
      simp only [addI32]
      omega
  · intro n member
    rcases List.mem_append.mp member with old | new
    · exact apart.requests n old
    · rcases allots_clear clear new with request | order
      · obtain ⟨own, below⟩ := request
        cases own
        exact ⟨apart.low.1, below⟩
      · obtain ⟨m, wrong, _⟩ := order
        cases wrong
  · intro n member
    rcases List.mem_append.mp member with old | new
    · exact apart.orders n old
    · rcases allots_clear clear new with request | order
      · cases request.1
      · obtain ⟨m, own, outside⟩ := order
        cases own
        exact outside
  · intro x waits
    rcases sessionStep_waits waits with before | given
    · exact List.mem_append_left _ (apart.waiting x before)
    · exact List.mem_append_right _ given

theorem placeOrder_routes {s : Session} {req : PlaceOrderReq} {sends : Bool} {emission : Emission} :
    .routed emission ∉ (s.placeOrder formats account req sends).2 := by
  intro member
  rcases @placeOrder_cases formats account s req sends with ordered | refused
  · obtain ⟨params, _, out, _⟩ := ordered
    rw [out] at member
    cases List.mem_singleton.mp member
  · rw [refused.2.1] at member
    cases member

theorem watch_addressed {w : Watched} (apart : Apart bound w) {notice : Notice} (raised : Raised w notice)
    {out : Option Subject × SessionOut} (sent : out ∈ (watch chrono formats account w notice).2) :
    ∀ pair ∈ failure out, pair.1 = some pair.2 := by
  intro pair fails
  obtain ⟨event, about⟩ := notice
  obtain ⟨result, member, rfl⟩ := List.mem_map.mp sent
  cases result with
  | ordered orderId req frame sent => cases fails
  | routed emission =>
    obtain ⟨x, found, rfl⟩ := Option.map_eq_some_iff.mp fails
    cases event with
    | dispatched now publisher fields =>
      obtain ⟨other, own, same⟩ := List.mem_map.mp member
      cases same
      obtain ⟨e, parsed, id, waits⟩ := dispatch_failed own found
      have held := apart.waiting x waits
      have subject := raised e parsed
      cases about with
      | none => exact absurd id (subject x held)
      | some y => exact congrArg some (one_holder apart subject.2 held (subject.1.trans id.symm))
    | placeOrder req sends => exact absurd member placeOrder_routes
    | _ => cases member

theorem apart_live {w : Watched} (apart : Apart bound w) (n : ℤ) :
    ¬(Waits w.session.broker (.order n) ∧ Waits w.session.broker (.request n)) := by
  intro both
  have same := one_holder apart (apart.waiting _ both.1) (apart.waiting _ both.2) rfl
  cases same

end Watch

theorem errors_addressed {chrono : Chrono} {formats : Formats} {account : String} {bound : ℤ} (start : 1000 ≤ bound)
    (small : bound ≤ i32Max) {run : List Notice}
    (along : Machine.Along (watch chrono formats account) (fun w notice => Raised w notice ∧ Clear bound w notice)
      .new run) : ErrorsAddressed chrono formats account run := by
  have fresh : Apart bound .new := by
    refine ⟨⟨le_refl _, start⟩, ?_, ?_, ?_⟩
    · intro n member
      cases member
    · intro n member
      cases member
    · intro x waits
      cases x with
      | order n => cases waits
      | request n => rcases waits with contract | execution <;> contradiction
  have kept : ∀ w notice, Raised w notice ∧ Clear bound w notice → Apart bound w →
      Apart bound (watch chrono formats account w notice).1 := by
    intro w notice given apart
    exact watch_apart small apart given.2
  refine ⟨?_, ?_⟩
  · intro pair member
    obtain ⟨out, sent, fails⟩ := List.mem_filterMap.mp member
    refine Machine.emits (Apart bound) (fun out => ∀ pair ∈ failure out, pair.1 = some pair.2) kept ?_ fresh along
      out sent pair fails
    intro w notice given apart out sent
    exact watch_addressed apart given.1 sent
  · intro past rest split n
    rw [split, Machine.along_append] at along
    exact apart_live (Machine.reached (Apart bound) kept fresh along.1) n

section Collision

def noText : Formats := ⟨fun _ => "", fun _ _ => "", fun _ _ => ""⟩

def limitOrder : PlaceOrderReq where
  contract := ⟨77, .future, "HG", "HGM6", .epoch, none, none, .finite 25000, .comex, .usd⟩
  side := .buy
  qty := 1
  orderType := .limit
  price := some (.finite 6)
  tif := .day
  gtdUntilUtc := none
  clientOrderRef := ""
  account := none

def errorFrame (id code : String) : Frame := ["4", "2", id, code, "refused"]

-- The first data request and the order after a nextValidId of `first`, then the errors.
def orderAndRequest (first : String) (errors : List Notice) : List Notice :=
  [(.received ["9", "1", first], none), (.contractsRequested, none), (.placeOrder limitOrder true, none)] ++ errors

end Collision

theorem error_crosses :
    let run := orderAndRequest "1000" [(.dispatched 0 false (errorFrame "1000" "200"), some (.order 1000))]
    Machine.Along (watch ⟨fun _ _ => none⟩ noText "") Raised .new run ∧
      ¬ErrorsAddressed ⟨fun _ _ => none⟩ noText "" run := by
  have parsed : parseInbound (errorFrame "1000" "200") = .ok (.error ⟨1000, 200, "refused", ""⟩) := by decide +kernel
  refine ⟨⟨trivial, trivial, trivial, ?_, trivial⟩, ?_⟩
  · intro e given
    rw [parsed] at given
    cases given
    exact ⟨rfl, by decide +kernel⟩
  · intro given
    have wrong := given.addressed (some (.order 1000), .request 1000) (by decide +kernel)
    cases wrong

theorem errors_addressed_apart :
    let run := orderAndRequest "7" [(.dispatched 0 false (errorFrame "7" "201"), some (.order 7)),
      (.dispatched 0 false (errorFrame "1000" "200"), some (.request 1000))]
    ErrorsAddressed ⟨fun _ _ => none⟩ noText "" run := by
  have rejected : parseInbound (errorFrame "7" "201") = .ok (.error ⟨7, 201, "refused", ""⟩) := by decide +kernel
  have missing : parseInbound (errorFrame "1000" "200") = .ok (.error ⟨1000, 200, "refused", ""⟩) := by decide +kernel
  have start : (1000 : ℤ) ≤ 2000 := by decide
  refine errors_addressed start (by decide) ⟨⟨trivial, trivial⟩, ⟨trivial, ?_⟩, ⟨trivial, ?_⟩, ⟨?_, trivial⟩, ⟨?_, trivial⟩, trivial⟩
  · change (1000 : ℤ) < 2000
    decide
  · right
    left
    decide +kernel
  · intro e given
    rw [rejected] at given
    cases given
    exact ⟨rfl, by decide +kernel⟩
  · intro e given
    rw [missing] at given
    cases given
    exact ⟨rfl, by decide +kernel⟩

end Corsair.Native
