import Corsair.Native.BrokerCalls
import Corsair.Native.ErrorAddress

namespace Corsair.Native

open BrokerApi Framing Machine

-- The places of the four tables a call registers in, and what stands there.
inductive Slot where
  | ack (orderId : ℤ)
  | contracts (reqId : ℤ)
  | executions (reqId : ℤ)
  | route (reqId : ℤ)
  deriving DecidableEq

inductive Entry where
  | ack
  | contracts (accumulated : List ContractDetailsMsg)
  | executions (accumulated : List Fill)
  | route (instrumentId : InstrumentId)

def BrokerState.entry (s : BrokerState) : Slot → Option Entry
  | .ack n => (s.pendingPlaceAcks.get n).map fun _ => .ack
  | .contracts n => (s.pendingContractDetails.get n).map .contracts
  | .executions n => (s.pendingExecutions.get n).map .executions
  | .route n => (s.tickRoutes.get n).map .route

-- A call that fails leaves the tables as the frames dispatched meanwhile leave them
-- without it: as they were, where there are none.
def NoResidue (a : CallContext) (s : Session) (c : BrokerCall) (sending : Sending) : Prop :=
  (a.call s sending c).error.isSome → ∀ slot,
    (a.call s sending c).session.broker.entry slot =
      (s.hears a.chrono a.publisher (a.call s sending c).waited).broker.entry slot

-- The call gets by the exits that keep its registration.
def Undoes (a : CallContext) (s : Session) : BrokerCall → Sending → Prop
  | .placeOrder req, _ => req.qty = 0 ∨ s.client.nextOrderId ≤ 0 ∨ (buildPlaceParams a.formats req a.account).isOk
  | .recentFills, .refused _ | .qualifyFuture _, .refused _ | .qualifyOption _, .refused _
  | .listChain _, .refused _ | .subscribeTicks _, .refused _ => False
  | .recentFills, .taken _ | .qualifyFuture _, .taken _ | .qualifyOption _, .taken _
  | .listChain _, .taken _ | .subscribeTicks _, .taken _ => True

-- Neither counter is at the end of its i32.
def Roomy (s : Session) : Prop := s.nextReqId < i32Max ∧ s.client.nextOrderId < i32Max

instance (s : Session) : Decidable (Roomy s) := inferInstanceAs (Decidable (_ ∧ _))

section Sweeps

variable {chrono : Chrono} {publisher : Bool}

-- A message acts on each place by itself, and on none where nothing stands.
def Sweeps (before after : BrokerState → Slot → Option Entry) : Prop :=
  ∃ f : Slot → Option Entry → Option Entry, (∀ slot, f slot none = none) ∧
    ∀ s slot, after s slot = f slot (before s slot)

def clear (cleared : Slot → Prop) [DecidablePred cleared] (slot : Slot) (entry : Option Entry) : Option Entry :=
  if cleared slot then none else entry

theorem sweeps_clear {before after : BrokerState → Slot → Option Entry} (cleared : Slot → Prop) [DecidablePred cleared]
    (same : ∀ s slot, after s slot = clear cleared slot (before s slot)) : Sweeps before after := by
  refine ⟨clear cleared, ?_, same⟩
  intro slot
  unfold clear
  split <;> rfl

theorem sweeps_same {after : BrokerState → BrokerState} (same : ∀ s slot, (after s).entry slot = s.entry slot) :
    Sweeps BrokerState.entry fun s => (after s).entry :=
  ⟨fun _ entry => entry, fun _ => rfl, same⟩

theorem sweeps_gather {before after : BrokerState → Slot → Option Entry} (own : Slot → Prop) [DecidablePred own]
    (gather : Entry → Entry)
    (same : ∀ s slot, after s slot = if own slot then (before s slot).map gather else before s slot) :
    Sweeps before after := by
  refine ⟨fun slot entry => if own slot then entry.map gather else entry, ?_, same⟩
  intro slot
  dsimp only
  split <;> rfl

def Entry.accumulate (cd : Option ContractDetailsMsg) (fill : Option Fill) : Entry → Entry
  | .contracts accumulated => .contracts (accumulated ++ cd.toList)
  | .executions accumulated => .executions (accumulated ++ fill.toList)
  | .ack => .ack
  | .route instrumentId => .route instrumentId

theorem resolve_entry (s : BrokerState) (orderId : ℤ) (result : Except BrokerError Unit) (slot : Slot) :
    (resolvePlaceAck s orderId result).1.entry slot = clear (· = .ack orderId) slot (s.entry slot) := by
  unfold resolvePlaceAck clear
  cases slot with
  | ack n =>
    simp only [BrokerState.entry, HashMap.get_remove, Slot.ack.injEq]
    split <;> rfl
  | _ => rfl

-- A waiter is failed where there is one; where there is none, taking it out is nothing.
theorem failed_get {ν : Type} (map : HashMap ℤ ν) (key n : ℤ) (positive fatal : Prop) [Decidable positive] [Decidable fatal] :
    (if positive ∧ fatal ∧ (map.get key).isSome then map.remove key else map).get n =
      if positive ∧ n = key ∧ fatal then none else map.get n := by
  by_cases fails : positive ∧ fatal
  · simp only [fails, true_and, and_true]
    by_cases own : n = key
    · subst own
      cases waits : map.get n with
      | none => simp [waits]
      | some value => simp [HashMap.get_remove]
    · rw [if_neg own]
      split
      · rw [HashMap.get_remove, if_neg own]
      · rfl
  · have unfailed : ¬(positive ∧ fatal ∧ (map.get key).isSome) := fun given => fails ⟨given.1, given.2.1⟩
    have spared : ¬(positive ∧ n = key ∧ fatal) := fun given => fails ⟨given.1, given.2.2⟩
    rw [if_neg unfailed, if_neg spared]

theorem execution_sweeps (now : ℕ) (e : ExecutionMsg) :
    Sweeps BrokerState.entry fun s => (routeExecution now s e).1.entry := by
  cases made : executionToFill now e with
  | none =>
    apply sweeps_same
    intro s slot
    simp only [routeExecution, made]
  | some fill =>
    apply sweeps_gather (fun slot => slot = .executions e.reqId ∧ 0 < e.reqId) (Entry.accumulate none (some fill))
    intro s slot
    simp only [routeExecution, made]
    cases slot with
    | executions n =>
      by_cases pending : 0 < e.reqId ∧ (s.pendingExecutions.get e.reqId).isSome
      · simp only [pending, and_self, and_true, if_true, BrokerState.entry, HashMap.get_modify, Slot.executions.injEq]
        split
        · rename_i own
          rw [own, Option.map_map, Option.map_map]
          rfl
        · rfl
      · simp only [pending, if_false, BrokerState.entry, Slot.executions.injEq]
        split
        · rename_i own
          have nobody : s.pendingExecutions.get n = none := by
            rw [own.1]
            by_contra waits
            exact pending ⟨own.2, Option.isSome_iff_ne_none.mpr waits⟩
          rw [nobody]
          rfl
        · rfl
    | _ => split <;> rfl

theorem contractDetails_sweeps (now : ℕ) (cd : ContractDetailsMsg) :
    Sweeps BrokerState.entry fun s => (route chrono now publisher s (.contractDetails cd)).1.entry := by
  apply sweeps_gather (· = .contracts cd.reqId) (Entry.accumulate (some cd) none)
  intro s slot
  cases slot with
  | contracts n =>
    simp only [route, BrokerState.entry, HashMap.get_modify, Slot.contracts.injEq]
    split
    · rename_i own
      rw [own, Option.map_map, Option.map_map]
      rfl
    · rfl
  | _ => rfl

theorem error_sweeps (e : ErrorMsg) : Sweeps BrokerState.entry fun s => (routeError s e).1.entry := by
  apply sweeps_clear fun slot => 0 < e.reqId ∧ (slot = .contracts e.reqId ∧ isContractError e.errorCode ∨
    slot = .ack e.reqId ∧ isOrderError e.errorCode)
  intro s slot
  unfold clear
  cases slot with
  | contracts n =>
    simp only [routeError, BrokerState.entry, failed_get, Slot.contracts.injEq, reduceCtorEq, false_and, or_false]
    split <;> rfl
  | ack n =>
    simp only [routeError, BrokerState.entry, failed_get, Slot.ack.injEq, reduceCtorEq, false_and, false_or]
    split <;> rfl
  | executions n =>
    rw [if_neg (by simp)]
    rfl
  | route n =>
    rw [if_neg (by simp)]
    rfl

theorem route_sweeps (now : ℕ) (msg : InboundMsg) :
    Sweeps BrokerState.entry fun s => (route chrono now publisher s msg).1.entry := by
  cases msg with
  | openOrder o =>
    apply sweeps_clear (· = .ack o.orderId)
    intro s slot
    simp only [route, routeOpenOrder, resolve_entry]
    cases nativeToOpenOrder chrono o <;> cases slot <;> rfl
  | orderStatus o =>
    by_cases acks : acknowledges (parseStatus o.status)
    · apply sweeps_clear (· = .ack o.orderId)
      intro s slot
      simp only [route, routeOrderStatus, acks, if_true, resolve_entry]
      cases slot <;> rfl
    · apply sweeps_same
      intro s slot
      simp only [route, routeOrderStatus, acks, Bool.false_eq_true, if_false]
      cases slot <;> rfl
  | position p =>
    apply sweeps_same
    intro s slot
    simp only [route, routePosition]
    split
    · cases slot <;> rfl
    · split <;> cases slot <;> rfl
  | execution e => exact execution_sweeps now e
  | executionEnd reqId =>
    apply sweeps_clear (· = .executions reqId)
    intro s slot
    unfold clear
    cases slot with
    | executions n =>
      simp only [route, routeExecutionEnd, BrokerState.entry, HashMap.get_remove, Slot.executions.injEq]
      split <;> rfl
    | _ => rfl
  | contractDetails cd => exact contractDetails_sweeps now cd
  | contractDetailsEnd reqId =>
    apply sweeps_clear (· = .contracts reqId)
    intro s slot
    unfold clear
    cases slot with
    | contracts n =>
      simp only [route, routeContractDetailsEnd, BrokerState.entry, HashMap.get_remove, Slot.contracts.injEq]
      split <;> rfl
    | _ => rfl
  | error e => exact error_sweeps e
  | _ => exact sweeps_same fun _ _ => rfl

theorem arrive_sweeps (a : Arrival) : Sweeps BrokerState.entry fun s => (arrive chrono publisher s a).1.entry := by
  unfold arrive dispatch
  cases parseInbound a.frame with
  | error e => exact ⟨fun _ entry => entry, fun _ => rfl, fun _ _ => rfl⟩
  | ok msg => exact route_sweeps a.now msg

theorem heard_sweeps (heard : List Arrival) :
    Sweeps BrokerState.entry fun s => (after (arrive chrono publisher) s heard).entry := by
  induction heard with
  | nil => exact ⟨fun _ entry => entry, fun _ => rfl, fun _ _ => rfl⟩
  | cons a rest next =>
    obtain ⟨first, first_none, first_same⟩ := @arrive_sweeps chrono publisher a
    obtain ⟨later, later_none, later_same⟩ := next
    refine ⟨fun slot entry => later slot (first slot entry), ?_, ?_⟩
    · intro slot
      exact (congrArg (later slot) (first_none slot)).trans (later_none slot)
    · intro s slot
      exact (later_same (arrive chrono publisher s a).1 slot).trans (congrArg (later slot) (first_same s slot))

end Sweeps

section Answers

variable {chrono : Chrono} {publisher : Bool}

-- The place whose waiter an emission answers. It is empty from then on.
def answered? : Emission → Option Slot
  | .placeAck n _ => some (.ack n)
  | .contracts n _ => some (.contracts n)
  | .executions n _ => some (.executions n)
  | _ => none

theorem resolve_answers {s : BrokerState} {orderId : ℤ} {result : Except BrokerError Unit} {emission : Emission} {slot : Slot}
    (sent : emission ∈ (resolvePlaceAck s orderId result).2) (answers : answered? emission = some slot) :
    slot = .ack orderId := by
  unfold resolvePlaceAck at sent
  dsimp only at sent
  split at sent
  · rw [List.mem_singleton.mp sent] at answers
    exact (Option.some.inj answers).symm
  · cases sent

theorem tick_unanswered {s : BrokerState} {reqId : ℤ} {kind : Option TickKind} {tick : InstrumentId → TickKind → Tick}
    {emission : Emission} (sent : emission ∈ routeTick publisher s reqId kind tick) : answered? emission = none := by
  obtain ⟨t, rfl | rfl⟩ := routeTick_sends sent <;> rfl

theorem route_answers {now : ℕ} {s : BrokerState} {msg : InboundMsg} {emission : Emission} {slot : Slot}
    (sent : emission ∈ (route chrono now publisher s msg).2) (answers : answered? emission = some slot) :
    (route chrono now publisher s msg).1.entry slot = none := by
  cases msg with
  | openOrder o =>
    obtain rfl := resolve_answers sent answers
    simp only [route, routeOpenOrder, resolve_entry]
    exact if_pos rfl
  | orderStatus o =>
    simp only [route, routeOrderStatus] at sent ⊢
    rcases List.mem_append.mp sent with ack | status
    · by_cases acks : acknowledges (parseStatus o.status)
      · simp only [acks, if_true] at ack ⊢
        obtain rfl := resolve_answers ack answers
        rw [resolve_entry]
        exact if_pos rfl
      · simp only [acks, Bool.false_eq_true, if_false] at ack
        cases ack
    · rw [List.mem_singleton.mp status] at answers
      cases answers
  | execution e =>
    simp only [route, routeExecution] at sent
    split at sent
    · cases sent
    · split at sent
      · cases sent
      · rw [List.mem_singleton.mp sent] at answers
        cases answers
  | executionEnd reqId =>
    simp only [route, routeExecutionEnd] at sent ⊢
    split at sent
    · rw [List.mem_singleton.mp sent] at answers
      obtain rfl := Option.some.inj answers
      simp [BrokerState.entry, HashMap.get_remove]
    · cases sent
  | contractDetailsEnd reqId =>
    simp only [route, routeContractDetailsEnd] at sent ⊢
    split at sent
    · rw [List.mem_singleton.mp sent] at answers
      obtain rfl := Option.some.inj answers
      simp [BrokerState.entry, HashMap.get_remove]
    · cases sent
  | tickPrice t =>
    rw [tick_unanswered sent] at answers
    cases answers
  | tickSize t =>
    rw [tick_unanswered sent] at answers
    cases answers
  | error e =>
    simp only [route, routeError] at sent ⊢
    rcases List.mem_append.mp sent with waiter | broadcast
    · rcases List.mem_append.mp waiter with contract | place
      · split at contract
        · rename_i fails
          rw [List.mem_singleton.mp contract] at answers
          obtain rfl := Option.some.inj answers
          simp [BrokerState.entry, fails, HashMap.get_remove]
        · cases contract
      · split at place
        · rename_i fails
          rw [List.mem_singleton.mp place] at answers
          obtain rfl := Option.some.inj answers
          simp [BrokerState.entry, fails, HashMap.get_remove]
        · cases place
    · rw [List.mem_singleton.mp broadcast] at answers
      cases answers
  | _ => cases sent

theorem arrive_answers {s : BrokerState} {a : Arrival} {emission : Emission} {slot : Slot}
    (sent : emission ∈ (arrive chrono publisher s a).2) (answers : answered? emission = some slot) :
    (arrive chrono publisher s a).1.entry slot = none := by
  unfold arrive dispatch at *
  split at sent
  · exact route_answers sent answers
  · cases sent

theorem heard_answers {s : BrokerState} {heard : List Arrival} {emission : Emission} {slot : Slot}
    (sent : emission ∈ emitted (arrive chrono publisher) s heard) (answers : answered? emission = some slot) :
    (after (arrive chrono publisher) s heard).entry slot = none := by
  obtain ⟨before, a, rest, rfl, here⟩ := mem_emitted.mp sent
  have emptied := arrive_answers here answers
  obtain ⟨f, none_kept, same⟩ := @heard_sweeps chrono publisher rest
  rw [after_append]
  exact (same _ slot).trans ((congrArg (f slot) emptied).trans (none_kept slot))

end Answers

section Calls

variable {a : CallContext} {s : Session}

-- Registered in an empty place: `asked` differs from the session before in that alone.
structure Registers (s asked : Session) (slot : Slot) : Prop where
  fresh : s.broker.entry slot = none
  others : ∀ other, other ≠ slot → asked.broker.entry other = s.broker.entry other

-- What takes a registration back.
def Drops (slot : Slot) (drop : Session → Session) : Prop :=
  ∀ (s : Session) other, (drop s).broker.entry other = if other = slot then none else s.broker.entry other

theorem await_restores {α : Type} {chrono : Chrono} {publisher : Bool} {asked : Session} {slot : Slot}
    {drop : Session → Session} (registers : Registers s asked slot) (drops : Drops slot drop)
    {answer : Emission → Option (Except BrokerError α)}
    (own : ∀ emission result, answer emission = some result → answered? emission = some slot) (heard : List Arrival)
    (timeout : BrokerError) (other : Slot) :
    (asked.awaitAnswer chrono publisher heard answer drop timeout).session.broker.entry other =
      (s.hears chrono publisher (asked.awaitAnswer chrono publisher heard answer drop timeout).waited).broker.entry
        other := by
  obtain ⟨f, none_kept, same⟩ := @heard_sweeps chrono publisher heard
  have alone : (s.hears chrono publisher heard).broker.entry slot = none :=
    (same s.broker slot).trans ((congrArg (f slot) registers.fresh).trans (none_kept slot))
  have beside : other ≠ slot → (asked.hears chrono publisher heard).broker.entry other =
      (s.hears chrono publisher heard).broker.entry other := by
    intro apart
    exact (same asked.broker other).trans ((congrArg (f other) (registers.others other apart)).trans
      (same s.broker other).symm)
  unfold Session.awaitAnswer
  split
  · rename_i result found
    by_cases apart : other = slot
    · subst apart
      obtain ⟨emission, sent, answers⟩ := List.exists_of_findSome?_eq_some found
      exact (heard_answers sent (own emission result answers)).trans alone.symm
    · exact beside apart
  · dsimp only
    rw [drops]
    split
    · rename_i here
      rw [here, alone]
    · rename_i apart
      exact beside apart

theorem picked_own {α : Type} {n key : ℤ} {sent result : α} (slot : ℤ → Slot)
    (picked : (if n = key then some sent else none) = some result) : some (slot n) = some (slot key) := by
  split at picked
  · rename_i same
    rw [same]
  · cases picked

theorem ack_own {orderId : ℤ} (emission : Emission) (result : Except BrokerError Unit)
    (answers : ackAnswer orderId emission = some result) : answered? emission = some (.ack orderId) := by
  unfold ackAnswer at answers
  split at answers
  · exact picked_own Slot.ack answers
  · cases answers

theorem contracts_own {reqId : ℤ} (emission : Emission) (result : Except BrokerError (List Contract))
    (answers : contractsAnswer reqId emission = some result) : answered? emission = some (.contracts reqId) := by
  unfold contractsAnswer at answers
  split at answers
  · exact picked_own Slot.contracts answers
  · cases answers

theorem executions_own {reqId : ℤ} (emission : Emission) (result : Except BrokerError (List Fill))
    (answers : executionsAnswer reqId emission = some result) : answered? emission = some (.executions reqId) := by
  unfold executionsAnswer at answers
  split at answers
  · exact picked_own Slot.executions answers
  · cases answers

theorem dropAck_drops (orderId : ℤ) : Drops (.ack orderId) (·.dropAck orderId) := by
  intro s other
  cases other with
  | ack n =>
    simp only [Session.dropAck, Session.setPlaceAcks, BrokerState.entry, HashMap.get_remove, Slot.ack.injEq]
    split <;> rfl
  | _ => rfl

theorem contracts_drops (reqId : ℤ) :
    Drops (.contracts reqId) fun s => s.setContractDetails (s.broker.pendingContractDetails.remove reqId) := by
  intro s other
  cases other with
  | contracts n =>
    simp only [Session.setContractDetails, BrokerState.entry, HashMap.get_remove, Slot.contracts.injEq]
    split <;> rfl
  | _ => rfl

theorem executions_drops (reqId : ℤ) :
    Drops (.executions reqId) fun s => s.setExecutions (s.broker.pendingExecutions.remove reqId) := by
  intro s other
  cases other with
  | executions n =>
    simp only [Session.setExecutions, BrokerState.entry, HashMap.get_remove, Slot.executions.injEq]
    split <;> rfl
  | _ => rfl

end Calls

section Fresh

variable {chrono : Chrono} {formats : Formats} {account : String}

-- Both counters are ahead of the ids in use.
structure Ahead (s : Session) : Prop where
  low : 0 ≤ s.nextReqId
  orders : ∀ n, Waits s.broker (.order n) → n < s.client.nextOrderId
  requests : ∀ n, Waits s.broker (.request n) → n < s.nextReqId
  routes : ∀ n, (s.broker.tickRoutes.get n).isSome → n < s.nextReqId

theorem start_ahead : Ahead .new := by
  refine ⟨by decide, ?_, ?_, ?_⟩
  · intro n waits
    cases waits
  · intro n waits
    rcases waits with waits | waits <;> cases waits
  · intro n routed
    cases routed

theorem addI32_succ {n : ℤ} (low : 0 ≤ n) (below : n < i32Max) : addI32 n 1 = n + 1 := by
  unfold i32Max at below
  unfold addI32
  omega

theorem recvFrame_grows (c : NativeClient) (fields : Frame) : c.nextOrderId ≤ (c.recvFrame fields).nextOrderId := by
  rw [recvFrame_counter]
  split
  · exact le_max_left _ _
  · exact le_refl _

theorem alloc_grows {c : NativeClient} (below : c.nextOrderId < i32Max) :
    c.nextOrderId ≤ c.allocOrderId.1.nextOrderId ∧ (0 < c.nextOrderId → c.nextOrderId < c.allocOrderId.1.nextOrderId) := by
  unfold NativeClient.allocOrderId
  split
  · rename_i seeded
    have next := addI32_succ seeded.le below
    dsimp only
    omega
  · rename_i unseeded
    exact ⟨le_refl _, fun seeded => absurd seeded unseeded⟩

theorem placeOrder_counters (s : Session) (req : PlaceOrderReq) (sends : Bool) :
    (s.placeOrder formats account req sends).1.nextReqId = s.nextReqId ∧
      ((s.placeOrder formats account req sends).1.client = s.client ∧ req.qty = 0 ∨
        (s.placeOrder formats account req sends).1.client = s.client.allocOrderId.1) := by
  unfold Session.placeOrder
  split
  · rename_i nothing
    exact ⟨rfl, .inl ⟨rfl, nothing⟩⟩
  · split
    · exact ⟨rfl, .inr rfl⟩
    · split
      · exact ⟨rfl, .inr rfl⟩
      · cases sends <;> exact ⟨rfl, .inr rfl⟩

theorem placed_allots {s : Session} {req : PlaceOrderReq} {sends : Bool} {x : Subject}
    (given : x ∈ allots s (.placeOrder req sends)) : x = .order s.client.nextOrderId ∧ 0 < s.client.nextOrderId := by
  simp only [allots] at given
  split at given
  · rename_i taken
    exact ⟨List.mem_singleton.mp given, taken.2⟩
  · cases given

-- What an event does to the counters: they never fall behind what it hands out.
structure Outruns (s next : Session) (given : List Subject) : Prop where
  orderId : s.client.nextOrderId ≤ next.client.nextOrderId
  reqId : s.nextReqId ≤ next.nextReqId
  orders : ∀ n, .order n ∈ given → n < next.client.nextOrderId
  requests : ∀ n, .request n ∈ given → n < next.nextReqId

theorem counts_request {s next : Session} (low : 0 ≤ s.nextReqId) (below : s.nextReqId < i32Max)
    (client : next.client = s.client) (drawn : next.nextReqId = addI32 s.nextReqId 1) :
    Outruns s next [.request s.nextReqId] := by
  rw [addI32_succ low below] at drawn
  refine ⟨by rw [client], by omega, ?_, ?_⟩
  · intro n given
    cases List.mem_singleton.mp given
  · intro n given
    cases List.mem_singleton.mp given
    omega

theorem counts_same {s next : Session} (client : s.client.nextOrderId ≤ next.client.nextOrderId)
    (same : next.nextReqId = s.nextReqId) : Outruns s next [] :=
  ⟨client, same.ge, fun _ given => absurd given List.not_mem_nil, fun _ given => absurd given List.not_mem_nil⟩

theorem sessionStep_counts {s : Session} {event : SessionEvent} (low : 0 ≤ s.nextReqId) (roomy : Roomy s) :
    Outruns s (sessionStep chrono formats account s event).1 (allots s event) := by
  cases event with
  | received fields => exact counts_same (recvFrame_grows s.client fields) rfl
  | placeOrder req sends =>
    obtain ⟨grows, passes⟩ := alloc_grows roomy.2
    obtain ⟨unasked, ⟨same, nothing⟩ | drawn⟩ := @placeOrder_counters formats account s req sends
    · have none_given : allots s (.placeOrder req sends) = [] := if_neg fun given => given.1 nothing
      rw [none_given]
      exact counts_same (by rw [sessionStep, same]) unasked
    · refine ⟨?_, unasked.ge, ?_, ?_⟩
      · rw [sessionStep, drawn]
        exact grows
      · intro n given
        obtain ⟨same, seeded⟩ := placed_allots given
        cases same
        rw [sessionStep, drawn]
        exact passes seeded
      · intro n given
        cases (placed_allots given).1
  | contractsRequested => exact counts_request low roomy.1 rfl rfl
  | fillsRequested => exact counts_request low roomy.1 rfl rfl
  | ticksSubscribed instrumentId => exact counts_request low roomy.1 rfl rfl
  | _ => exact counts_same (le_refl _) rfl

theorem sessionStep_routes {s : Session} {event : SessionEvent} {n : ℤ}
    (routed : ((sessionStep chrono formats account s event).1.broker.tickRoutes.get n).isSome) :
    (s.broker.tickRoutes.get n).isSome ∨ .request n ∈ allots s event := by
  cases event with
  | dispatched now publisher fields =>
    left
    simp only [sessionStep, dispatch] at routed
    split at routed
    · rwa [(route_tables chrono now publisher s.broker _).1] at routed
    · exact routed
  | placeOrder req sends =>
    left
    simp only [sessionStep, Session.placeOrder] at routed
    split at routed
    · exact routed
    · split at routed
      · exact routed
      · split at routed
        · exact routed
        · cases sends <;> exact routed
  | ticksSubscribed instrumentId =>
    simp only [sessionStep, Session.setRoutes, HashMap.get_set] at routed
    split at routed
    · rename_i own
      right
      rw [own]
      exact List.mem_singleton.mpr rfl
    · exact .inl routed
  | ticksUnsubscribed reqId => exact .inl (removed_some routed)
  | _ => exact .inl routed

theorem step_ahead {s : Session} (event : SessionEvent) (roomy : Roomy s) (ahead : Ahead s) :
    Ahead (sessionStep chrono formats account s event).1 := by
  have counts := @sessionStep_counts chrono formats account s event ahead.low roomy
  refine ⟨ahead.low.trans counts.reqId, ?_, ?_, ?_⟩
  · intro n waits
    rcases sessionStep_waits waits with before | given
    · exact (ahead.orders n before).trans_le counts.orderId
    · exact counts.orders n given
  · intro n waits
    rcases sessionStep_waits waits with before | given
    · exact (ahead.requests n before).trans_le counts.reqId
    · exact counts.requests n given
  · intro n routed
    rcases sessionStep_routes routed with before | given
    · exact (ahead.routes n before).trans_le counts.reqId
    · exact counts.requests n given

theorem received_ahead {s : Session} (ahead : Ahead s) (fields : Frame) :
    Ahead { s with client := s.client.recvFrame fields } := by
  refine ⟨ahead.low, ?_, ahead.requests, ahead.routes⟩
  intro n waits
  exact (ahead.orders n waits).trans_le (recvFrame_grows s.client fields)

theorem forward_ahead {l : Link} (ahead : Ahead l.session) (frames : List Frame) : Ahead (l.forward frames).1.session := by
  induction frames generalizing l with
  | nil => exact ahead
  | cons fields rest next =>
    have received := received_ahead ahead fields
    unfold Link.forward
    dsimp only
    split
    · exact received
    · split
      · exact next received
      · exact next received

theorem recvTurn_ahead {l : Link} (ahead : Ahead l.session) (task : ℕ) (buf : Bytes) (outcome : Read) :
    Ahead (l.recvTurn task buf outcome).session := by
  cases outcome with
  | eof => exact ahead
  | failed => exact ahead
  | bytes chunk =>
    unfold Link.recvTurn
    dsimp only
    split
    · rename_i rest frames decoded
      split
      · exact forward_ahead ahead frames
      · exact forward_ahead ahead frames
    · exact ahead

theorem drain_ahead {s : Session} (ahead : Ahead s) : Ahead { s with broker := (Link.drain s.broker).1 } := by
  refine ⟨ahead.low, ?_, ?_, ahead.routes⟩
  · intro n waits
    cases waits
  · intro n waits
    rcases waits with waits | waits <;> cases waits

theorem link_ahead {l : Link} (event : LinkEvent) (roomy : Roomy l.session) (ahead : Ahead l.session) :
    Ahead (linkStep chrono formats account l event).1.session := by
  cases event with
  | read task outcome =>
    simp only [linkStep]
    split
    · exact recvTurn_ahead ahead task _ outcome
    · exact ahead
  | dispatcherTurn now publisher =>
    simp only [linkStep, Link.dispatcherTurn]
    split
    · exact ahead
    · split
      · rename_i fields _
        exact @step_ahead chrono formats account _ (.dispatched now publisher fields) roomy ahead
      · exact ahead
      · exact ahead
  | called call =>
    simp only [linkStep]
    split
    · exact step_ahead call roomy ahead
    · exact ahead
  | disconnected =>
    simp only [linkStep]
    split
    · exact drain_ahead ahead
    · exact ahead
  | bootstrapped =>
    simp only [linkStep]
    split
    · split <;> exact ahead
    · exact ahead
  | requested sent =>
    simp only [linkStep]
    split
    · split <;> exact ahead
    · exact ahead
  | dialled answers =>
    simp only [linkStep]
    split <;> exact ahead
  | bootstrapTimedOut =>
    simp only [linkStep]
    split <;> exact ahead
  | released =>
    simp only [linkStep]
    split <;> exact ahead

theorem run_ahead {events : List LinkEvent}
    (roomy : Along (linkStep chrono formats account) (fun l _ => Roomy l.session) .new events) :
    Ahead (linkAfter chrono formats account events).session :=
  reached (fun l : Link => Ahead l.session) (fun _ event room ahead => link_ahead event room ahead) start_ahead roomy

theorem Ahead.fresh_ack {s : Session} (ahead : Ahead s) : s.broker.entry (.ack s.client.nextOrderId) = none := by
  cases found : s.broker.pendingPlaceAcks.get s.client.nextOrderId with
  | none => simp [BrokerState.entry, found]
  | some waiter => exact absurd (ahead.orders _ (Option.isSome_of_eq_some found)) (lt_irrefl _)

theorem Ahead.fresh_request {s : Session} (ahead : Ahead s) :
    s.broker.entry (.contracts s.nextReqId) = none ∧ s.broker.entry (.executions s.nextReqId) = none ∧
      s.broker.entry (.route s.nextReqId) = none := by
  refine ⟨?_, ?_, ?_⟩
  · cases found : s.broker.pendingContractDetails.get s.nextReqId with
    | none => simp [BrokerState.entry, found]
    | some waiter => exact absurd (ahead.requests _ (.inl (Option.isSome_of_eq_some found))) (lt_irrefl _)
  · cases found : s.broker.pendingExecutions.get s.nextReqId with
    | none => simp [BrokerState.entry, found]
    | some waiter => exact absurd (ahead.requests _ (.inr (Option.isSome_of_eq_some found))) (lt_irrefl _)
  · cases found : s.broker.tickRoutes.get s.nextReqId with
    | none => simp [BrokerState.entry, found]
    | some waiter => exact absurd (ahead.routes _ (Option.isSome_of_eq_some found)) (lt_irrefl _)

end Fresh

section Exits

variable {a : CallContext} {s : Session}

theorem awaitAck_registers {next : Session} {orderId : ℤ} (same : next.broker = s.broker)
    (fresh : s.broker.entry (.ack orderId) = none) : Registers s (next.awaitAck orderId) (.ack orderId) := by
  refine ⟨fresh, ?_⟩
  intro other apart
  rw [← same]
  cases other with
  | ack n =>
    have different : n ≠ orderId := fun own => apart (congrArg Slot.ack own)
    simp only [Session.awaitAck, Session.setPlaceAcks, BrokerState.entry, HashMap.get_set, if_neg different]
  | _ => rfl

theorem contracts_registers (fresh : s.broker.entry (.contracts s.nextReqId) = none) :
    Registers s (s.allocReqId.1.setContractDetails (s.broker.pendingContractDetails.set s.nextReqId []))
      (.contracts s.nextReqId) := by
  refine ⟨fresh, ?_⟩
  intro other apart
  cases other with
  | contracts n =>
    have different : n ≠ s.nextReqId := fun own => apart (congrArg Slot.contracts own)
    simp only [Session.setContractDetails, BrokerState.entry, HashMap.get_set, if_neg different]
  | _ => rfl

theorem executions_registers (fresh : s.broker.entry (.executions s.nextReqId) = none) :
    Registers s (s.allocReqId.1.setExecutions (s.broker.pendingExecutions.set s.nextReqId []))
      (.executions s.nextReqId) := by
  refine ⟨fresh, ?_⟩
  intro other apart
  cases other with
  | executions n =>
    have different : n ≠ s.nextReqId := fun own => apart (congrArg Slot.executions own)
    simp only [Session.setExecutions, BrokerState.entry, HashMap.get_set, if_neg different]
  | _ => rfl

-- A session that keeps what it registered does not pass for the one before.
theorem kept_residue {asked : Session} {slot : Slot} (fresh : s.broker.entry slot = none)
    (kept : (asked.broker.entry slot).isSome)
    (same : ∀ slot, asked.broker.entry slot = (s.hears a.chrono a.publisher []).broker.entry slot) : False := by
  have here : asked.broker.entry slot = s.broker.entry slot := same slot
  rw [here, fresh] at kept
  cases kept

theorem contracts_residue_iff {α : Type} (ahead : Ahead s) (name : String) (sending : Sending)
    (finish : List Contract → Except BrokerError α) :
    let r := (s.requestContracts a.chrono a.publisher name sending).andThen finish
    (r.ended.error.isSome → ∀ slot, r.ended.session.broker.entry slot =
      (s.hears a.chrono a.publisher r.ended.waited).broker.entry slot) ↔ ∃ heard, sending = .taken heard := by
  intro r
  cases sending with
  | refused e =>
    constructor
    · intro restores
      refine (@kept_residue a s _ (.contracts s.nextReqId) ahead.fresh_request.1 ?_ (restores rfl)).elim
      simp [r, Session.requestContracts, CallOutcome.andThen, CallOutcome.ended, BrokerState.entry,
        Session.setContractDetails, Session.allocReqId, HashMap.get_set]
    · intro given
      obtain ⟨heard, wrong⟩ := given
      cases wrong
  | taken heard =>
    refine ⟨fun _ => ⟨heard, rfl⟩, ?_⟩
    intro _ _ slot
    exact await_restores (contracts_registers ahead.fresh_request.1) (contracts_drops s.nextReqId) contracts_own heard
      (.internal (name ++ " timeout")) slot

theorem fills_residue_iff (ahead : Ahead s) (sending : Sending) :
    NoResidue a s .recentFills sending ↔ Undoes a s .recentFills sending := by
  cases sending with
  | refused e =>
    constructor
    · intro restores
      refine (@kept_residue a s _ (.executions s.nextReqId) ahead.fresh_request.2.1 ?_ (restores rfl)).elim
      simp [CallContext.call, Session.recentFills, CallOutcome.ended, BrokerState.entry, Session.setExecutions,
        Session.allocReqId, HashMap.get_set]
    · exact False.elim
  | taken heard =>
    refine ⟨fun _ => trivial, ?_⟩
    intro _ _ slot
    exact await_restores (executions_registers ahead.fresh_request.2.1) (executions_drops s.nextReqId) executions_own
      heard (.internal "recent_fills timeout") slot

theorem ticks_residue_iff (ahead : Ahead s) (instrumentId : InstrumentId) (sending : Sending) :
    NoResidue a s (.subscribeTicks instrumentId) sending ↔ Undoes a s (.subscribeTicks instrumentId) sending := by
  cases sending with
  | refused e =>
    constructor
    · intro restores
      refine (@kept_residue a s _ (.route s.nextReqId) ahead.fresh_request.2.2 ?_ (restores rfl)).elim
      simp [CallContext.call, Session.subscribeTicks, CallOutcome.ended, BrokerState.entry, Session.setRoutes,
        Session.allocReqId, HashMap.get_set]
    · exact False.elim
  | taken heard =>
    refine ⟨fun _ => trivial, ?_⟩
    intro _ failed
    cases failed

theorem place_residue_iff (ahead : Ahead s) (req : PlaceOrderReq) (sending : Sending) :
    NoResidue a s (.placeOrder req) sending ↔ Undoes a s (.placeOrder req) sending := by
  have fresh := ahead.fresh_ack
  have registers := @awaitAck_registers s s.allocOrderId.1 s.client.nextOrderId rfl fresh
  unfold NoResidue Undoes CallContext.call Session.placeOrderCall
  dsimp only
  by_cases nothing : req.qty = 0
  · simp only [nothing, if_true, true_or, iff_true]
    intro _ slot
    rfl
  · by_cases unseeded : s.client.nextOrderId ≤ 0
    · have alloc_unseeded : s.allocOrderId.2 ≤ 0 := unseeded
      simp only [if_neg nothing, if_pos alloc_unseeded, unseeded, true_or, or_true, iff_true]
      intro _ slot
      rfl
    · have alloc_seeded : ¬s.allocOrderId.2 ≤ 0 := unseeded
      have only_built : (req.qty = 0 ∨ s.client.nextOrderId ≤ 0 ∨ (buildPlaceParams a.formats req a.account).isOk) ↔
          (buildPlaceParams a.formats req a.account).isOk := by simp [nothing, unseeded]
      rw [if_neg nothing, if_neg alloc_seeded, only_built]
      cases built : buildPlaceParams a.formats req a.account with
      | error e =>
        simp only [Except.isOk, Except.toBool, Bool.false_eq_true, iff_false]
        intro restores
        refine @kept_residue a s _ (.ack s.client.nextOrderId) fresh ?_ (restores rfl)
        simp [CallOutcome.ended, BrokerState.entry, Session.awaitAck, Session.setPlaceAcks, Session.allocOrderId,
          NativeClient.allocOrderId, HashMap.get_set]
      | ok params =>
        simp only [Except.isOk, Except.toBool, iff_true]
        intro _ slot
        cases sending with
        | refused e =>
          change ((s.allocOrderId.1.awaitAck s.client.nextOrderId).dropAck s.client.nextOrderId).broker.entry slot = _
          rw [dropAck_drops s.client.nextOrderId]
          split
          · rename_i own
            rw [own]
            exact fresh.symm
          · rename_i apart
            exact registers.others slot apart
        | taken heard =>
          have sent : Registers s ((s.allocOrderId.1.awaitAck s.client.nextOrderId).sendOrder a.formats
            s.client.nextOrderId req params true).1 (.ack s.client.nextOrderId) := ⟨fresh, registers.others⟩
          exact await_restores sent (dropAck_drops s.client.nextOrderId) ack_own heard _ slot

end Exits

theorem failed_calls_iff (a : CallContext) (events : List LinkEvent) (c : BrokerCall) (sending : Sending)
    (roomy : Along (linkStep a.chrono a.formats a.account) (fun l _ => Roomy l.session) .new events) :
    let s := (linkAfter a.chrono a.formats a.account events).session
    NoResidue a s c sending ↔ Undoes a s c sending := by
  intro s
  have ahead : Ahead s := run_ahead roomy
  cases c with
  | placeOrder req => exact place_residue_iff ahead req sending
  | recentFills => exact fills_residue_iff ahead sending
  | qualifyFuture q =>
    refine (contracts_residue_iff ahead "qualify_future" sending _).trans ?_
    cases sending <;> simp [Undoes]
  | qualifyOption q =>
    refine (contracts_residue_iff ahead "qualify_option" sending _).trans ?_
    cases sending <;> simp [Undoes]
  | listChain q =>
    refine (contracts_residue_iff ahead "list_chain" sending _).trans ?_
    cases sending <;> simp [Undoes]
  | subscribeTicks instrumentId => exact ticks_residue_iff ahead instrumentId sending

section Refused

def callContext : CallContext := ⟨noDates, noTexts, fun _ => "", "DU1", false⟩

-- Connected, with 7 as the next order id.
def readySession : Session := (linkAfter noDates noTexts "DU1" (connectedThen [])).session

theorem readySession_eq : readySession = { Session.new with client := ⟨7, ["DU1"]⟩ } := by
  unfold readySession
  rw [connectedThen_after]
  rfl

theorem ready_roomy :
    Along (linkStep noDates noTexts "DU1") (fun l _ => Roomy l.session) .new (connectedThen []) := by
  unfold connectedThen
  rw [List.append_assoc, along_append]
  refine ⟨⟨by decide, by decide, trivial⟩, ?_⟩
  have read : after (linkStep noDates noTexts "DU1") .new [.dialled true, .read 0 (.bytes (wire bootstrapAnswers))] =
      bootstrapped := bootstrap_read noDates noTexts "DU1"
  rw [read]
  decide +kernel

end Refused

theorem refused_calls_wait :
    ¬NoResidue callContext readySession (.placeOrder { limitOrder with price := none }) (.taken []) ∧
      ¬NoResidue callContext readySession .recentFills (.refused .notConnected) := by
  rw [readySession_eq]
  constructor
  · intro restores
    have unchanged := restores (by decide +kernel) (.ack 7)
    exact absurd (congrArg Option.isSome unchanged) (by decide +kernel)
  · intro restores
    have unchanged := restores (by decide +kernel) (.executions 1000)
    exact absurd (congrArg Option.isSome unchanged) (by decide +kernel)

theorem unsent_order_cleaned : NoResidue callContext readySession (.placeOrder limitOrder) (.refused .notConnected) := by
  have builds : (buildPlaceParams noTexts limitOrder "DU1").isOk := by decide +kernel
  apply (failed_calls_iff callContext (connectedThen []) (.placeOrder limitOrder) (.refused .notConnected) ready_roomy).mpr
  exact .inr (.inr builds)

end Corsair.Native
