import Corsair.Daemon.FillOnce
import Corsair.Lib.Channel
import Corsair.Native.OrderCache

namespace Corsair.Daemon

open BrokerApi Native

-- client.rs and broker.rs
def dispatchChannelCap : ℕ := 16384
def fillChannelCap : ℕ := 1024

-- A broadcast fill, with the frame the dispatcher made it from. Only the fill is sent.
structure Delivery where
  frame : Frame
  fill : Fill

-- The frames between the receive loop and the dispatcher, the adapter, and the
-- fills between the dispatcher and pump_fills once that has subscribed.
structure Pipeline where
  frames : Channel.Queue dispatchChannelCap Frame
  msgsDropped : ℕ
  adapter : BrokerState
  fills : Option (Channel.Receiver fillChannelCap Delivery)

def Pipeline.start : Pipeline := ⟨.empty, 0, .default, none⟩

inductive PipelineEvent where
  | received (fields : Frame)
  | dispatched (now : ℕ)
  | fillsRequested (reqId : ℤ)
  | fillsTimedOut (reqId : ℤ)
  | subscribed
  | pumped

-- What becomes of a frame or a fill that leaves the pipeline, and what pump_fills logs.
inductive Outcome where
  | handled (delivery : Delivery)
  | lagged (count : ℕ)
  | shed (fields : Frame)
  | overwritten (delivery : Delivery)
  | unheard (delivery : Delivery)

-- The receive loop's try_send, which does not look at what kind of frame it sends.
def receive (p : Pipeline) (fields : Frame) : Pipeline × List Outcome :=
  match p.frames.trySend fields with
  | some frames => ({ p with frames }, [])
  | none => ({ p with msgsDropped := p.msgsDropped + 1 }, [.shed fields])

def broadcast (p : Pipeline) (deliveries : List Delivery) : Pipeline × List Outcome :=
  match p.fills with
  | some receiver =>
    let (next, out) := receiver.sendAll deliveries
    ({ p with fills := some next }, out.map .overwritten)
  | none => (p, deliveries.map .unheard)

def dispatchNext (chrono : Chrono) (publisher : Bool) (now : ℕ) (p : Pipeline) : Pipeline × List Outcome :=
  match p.frames.recv with
  | none => (p, [])
  | some (fields, frames) =>
    let (adapter, emissions) := dispatch chrono now publisher p.adapter fields
    broadcast { p with frames, adapter } ((broadcastFills emissions).map (⟨fields, ·⟩))

def pumpFills (p : Pipeline) : Pipeline × List Outcome :=
  match p.fills with
  | none => (p, [])
  | some receiver =>
    let (next, received) := receiver.recv
    ({ p with fills := some next }, match received with
      | .value delivery => [.handled delivery]
      | .lagged count => [.lagged count]
      | .waiting => [])

def pipelineStep (chrono : Chrono) (publisher : Bool) (p : Pipeline) : PipelineEvent → Pipeline × List Outcome
  | .received fields => receive p fields
  | .dispatched now => dispatchNext chrono publisher now p
  | .fillsRequested reqId =>
    ({ p with adapter := (adapterStep chrono publisher p.adapter (.fillsRequested reqId)).1 }, [])
  | .fillsTimedOut reqId =>
    ({ p with adapter := (adapterStep chrono publisher p.adapter (.fillsTimedOut reqId)).1 }, [])
  | .subscribed => match p.fills with
    | none => ({ p with fills := some .new }, [])
    | some _ => (p, [])
  | .pumped => pumpFills p

-- A live execution report of a side the adapter knows: one that answers no request.
def liveExecution (fields : Frame) : Option ExecutionMsg :=
  match parseInbound fields with
  | .ok (.execution e) => if ¬0 < e.reqId ∧ (e.side = "BOT" ∨ e.side = "SLD") then some e else none
  | _ => none

def untimed (fill : Fill) : Fill := { fill with timestampNs := 0 }

def liveFill (fields : Frame) : Option Fill := (liveExecution fields).bind (executionToFill 0)

def liveDelivery (d : Delivery) : Option Fill := (liveExecution d.frame).map fun _ => untimed d.fill

-- The live executions the receive loop decoded, those pump_fills handed to
-- handle_fill, and those that were lost on the way.
def decoded (events : List PipelineEvent) : List Fill :=
  events.filterMap fun
    | .received fields => liveFill fields
    | _ => none

def handled (outcomes : List Outcome) : List Fill :=
  outcomes.filterMap fun
    | .handled delivery => liveDelivery delivery
    | _ => none

def lost (outcomes : List Outcome) : List Fill :=
  outcomes.filterMap fun
    | .shed fields => liveFill fields
    | .overwritten delivery | .unheard delivery => liveDelivery delivery
    | _ => none

def Pipeline.pending (p : Pipeline) : List Delivery := (p.fills.map (·.pending)).getD []
def Pipeline.missed (p : Pipeline) : ℕ := (p.fills.map (·.missed)).getD 0

def Pipeline.queued (p : Pipeline) : List Fill :=
  p.pending.filterMap liveDelivery ++ p.frames.items.filterMap liveFill

def Outcome.isShed : Outcome → Bool
  | .shed _ => true
  | _ => false

def Outcome.isOverwritten : Outcome → Bool
  | .overwritten _ => true
  | _ => false

def Outcome.lagCount : Outcome → ℕ
  | .lagged count => count
  | _ => 0

-- A frame is shed, and a fill overwritten, by a channel that is full.
def Overflows (p : Pipeline) (e : PipelineEvent) : Outcome → Prop
  | .shed fields => e = .received fields ∧ p.frames.items.length = dispatchChannelCap
  | .overwritten _ => p.pending.length = fillChannelCap
  | .unheard _ => p.fills = none
  | .handled _ | .lagged _ => True

-- messages.rs, the types of the tick messages.
def isMarketData (fields : Frame) : Bool :=
  match fields.head?.map parseInt with
  | some (.ok type) => type ∈ ([1, 2, 21, 45, 46, 81] : List ℤ)
  | _ => false

-- An execution report that answers no waiting request goes to the stream of fills.
def Streams (s : BrokerState) (fields : Frame) : Prop :=
  ∃ e, parseInbound fields = .ok (.execution e) ∧ (e.side = "BOT" ∨ e.side = "SLD") ∧
    ¬(0 < e.reqId ∧ (s.pendingExecutions.get e.reqId).isSome)

-- A frame that finds the dispatch channel full is of market data, and one that goes to the
-- stream of fills finds room there. Before pump_fills has subscribed, it is not a live one.
def Keeps (p : Pipeline) : PipelineEvent → Prop
  | .received fields => p.frames.items.length < dispatchChannelCap ∨ isMarketData fields = true
  | .dispatched _ => ∀ fields ∈ p.frames.items.head?, Streams p.adapter fields →
    match p.fills with
    | some receiver => receiver.pending.length < fillChannelCap
    | none => liveExecution fields = none
  | _ => True

section Dispatch

variable {chrono : Chrono} {publisher : Bool} {now : ℕ} {s : BrokerState}

theorem market_unlive {fields : Frame} (market : isMarketData fields = true) : liveExecution fields = none := by
  have unlike : Builds (fun msg => ∀ e, msg ≠ .execution e) (parseInbound fields) := by
    cases fields with
    | nil => cases market
    | cons head rest =>
      refine builds_read fun ty read => ?_
      unfold isMarketData at market
      simp only [List.head?_cons, Option.map_some, read] at market
      split
      case h_12 => exact absurd market (by decide)
      all_goals
        try simp only [parseTickPrice, parseTickSize, parseTickOptionComputation, parseOrderStatus, parseError,
          parseOpenOrder, parseAccountValue, parseContractDetails, parseCommission, parsePosition]
        repeat (refine builds_bind fun _ => ?_)
        refine builds_pure ?_
        intro e same
        cases same
  unfold liveExecution
  split
  · rename_i e parsed
    exact absurd rfl (unlike _ parsed e)
  · rfl

theorem executionToFill_untimed (now : ℕ) (e : ExecutionMsg) :
    (executionToFill now e).map untimed = executionToFill 0 e := by
  unfold executionToFill
  by_cases bought : e.side = "BOT"
  · simp [bought, untimed]
  · by_cases sold : e.side = "SLD"
    · simp [sold, untimed]
    · simp [bought, sold]

theorem ack_fills (s : BrokerState) (orderId : ℤ) (result : Except BrokerError Unit) :
    broadcastFills (resolvePlaceAck s orderId result).2 = [] := by
  unfold resolvePlaceAck
  dsimp only
  split <;> rfl

theorem tick_fills (publisher : Bool) (s : BrokerState) (reqId : ℤ) (kind : Option TickKind)
    (tick : InstrumentId → TickKind → Tick) : broadcastFills (routeTick publisher s reqId kind tick) = [] := by
  unfold routeTick sendTick
  split
  · split <;> rfl
  · rfl

theorem broadcastFills_append (xs ys : List Emission) :
    broadcastFills (xs ++ ys) = broadcastFills xs ++ broadcastFills ys := List.filterMap_append

theorem route_unstreamed {msg : InboundMsg} (other : ∀ e, msg ≠ .execution e) :
    broadcastFills (route chrono now publisher s msg).2 = [] := by
  cases msg with
  | execution e => exact absurd rfl (other e)
  | openOrder o => simp [route, routeOpenOrder, ack_fills]
  | orderStatus o =>
    simp only [route, routeOrderStatus]
    split
    · simp only [broadcastFills_append, ack_fills]
      simp [broadcastFills]
    · simp [broadcastFills]
  | executionEnd reqId =>
    simp only [route, routeExecutionEnd]
    split <;> simp [broadcastFills]
  | contractDetailsEnd reqId =>
    simp only [route, routeContractDetailsEnd]
    split <;> simp [broadcastFills]
  | tickPrice t => simp [route, tick_fills]
  | tickSize t => simp [route, tick_fills]
  | error e =>
    simp only [route, routeError, broadcastFills_append]
    split
    · split <;> rfl
    · split <;> rfl
  | _ => simp [route, broadcastFills]

theorem route_fills (msg : InboundMsg) :
    (broadcastFills (route chrono now publisher s msg).2).length ≤ 1 := by
  by_cases execution : ∃ e, msg = .execution e
  · obtain ⟨e, rfl⟩ := execution
    simp only [route, routeExecution]
    split
    · simp [broadcastFills]
    · split <;> simp [broadcastFills]
  · rw [route_unstreamed fun e same => execution ⟨e, same⟩]
    exact Nat.zero_le 1

theorem dispatch_fills (fields : Frame) :
    (broadcastFills (dispatch chrono now publisher s fields).2).length ≤ 1 := by
  unfold dispatch
  split
  · exact route_fills _
  · simp [broadcastFills]

theorem live_parsed {fields : Frame} {e : ExecutionMsg} (live : liveExecution fields = some e) :
    parseInbound fields = .ok (.execution e) ∧ ¬0 < e.reqId ∧ (e.side = "BOT" ∨ e.side = "SLD") := by
  unfold liveExecution at live
  split at live
  · rename_i msg parsed
    split at live
    · rename_i holds
      cases live
      exact ⟨parsed, holds⟩
    · cases live
  · cases live

theorem dispatched_live (fields : Frame) :
    ((broadcastFills (dispatch chrono now publisher s fields).2).map (⟨fields, ·⟩)).filterMap liveDelivery =
      (liveFill fields).toList := by
  cases live : liveExecution fields with
  | none => simp [liveFill, liveDelivery, live]
  | some e =>
    obtain ⟨parsed, unasked, side⟩ := live_parsed live
    have untimed_same := executionToFill_untimed now e
    obtain ⟨fill, made⟩ : ∃ fill, executionToFill now e = some fill := by
      unfold executionToFill
      rcases side with bought | sold
      · simp [bought]
      · simp [sold]
    simp only [dispatch, parsed, route, routeExecution, made, unasked, false_and, if_false]
    rw [made] at untimed_same
    simp [broadcastFills, liveFill, liveDelivery, live, ← untimed_same]

end Dispatch

-- What is known of a pipeline and of what it was fed and let go of.
structure Traced (events : List PipelineEvent) (outcomes : List Outcome) (p : Pipeline) : Prop where
  accounted : Channel.Accounted (decoded events) (handled outcomes ++ p.queued) (lost outcomes)
  counted : p.msgsDropped = outcomes.countP (·.isShed)
  reported : p.missed + (outcomes.map (·.lagCount)).sum = outcomes.countP (·.isOverwritten)

section Trace

variable {events : List PipelineEvent} {outcomes : List Outcome} {p : Pipeline}

theorem decoded_append (xs ys : List PipelineEvent) : decoded (xs ++ ys) = decoded xs ++ decoded ys :=
  List.filterMap_append

theorem handled_append (xs ys : List Outcome) : handled (xs ++ ys) = handled xs ++ handled ys :=
  List.filterMap_append

theorem lost_append (xs ys : List Outcome) : lost (xs ++ ys) = lost xs ++ lost ys := List.filterMap_append

theorem filterMap_one {α β : Type*} (f : α → Option β) (x : α) : [x].filterMap f = (f x).toList := by
  cases found : f x with
  | none => simp [found]
  | some y => simp [found]

theorem lost_overwritten (ds : List Delivery) : lost (ds.map .overwritten) = ds.filterMap liveDelivery := by
  simp only [lost, List.filterMap_map]
  rfl

theorem lost_unheard (ds : List Delivery) : lost (ds.map .unheard) = ds.filterMap liveDelivery := by
  simp only [lost, List.filterMap_map]
  rfl

theorem lagged_nothing {made : Delivery → Outcome} (quiet : ∀ d, (made d).lagCount = 0) (ds : List Delivery) :
    ((ds.map made).map (·.lagCount)).sum = 0 := by
  simp [List.map_map, Function.comp_def, quiet]

theorem Traced.step (traced : Traced events outcomes p) {e : PipelineEvent} {made : List Outcome} {next : Pipeline}
    (accounted : Channel.Accounted (decoded events ++ decoded [e])
      (handled outcomes ++ handled made ++ next.queued) (lost outcomes ++ lost made))
    (counted : next.msgsDropped = p.msgsDropped + made.countP (·.isShed))
    (reported : next.missed + (made.map (·.lagCount)).sum = p.missed + made.countP (·.isOverwritten)) :
    Traced (events ++ [e]) (outcomes ++ made) next := by
  have before := traced.reported
  refine ⟨?_, ?_, ?_⟩
  · rwa [decoded_append, handled_append, lost_append]
  · rw [List.countP_append, ← traced.counted, counted]
  · rw [List.map_append, List.sum_append, List.countP_append]
    omega

theorem Traced.quiet (traced : Traced events outcomes p) {e : PipelineEvent} {next : Pipeline} (none_decoded : decoded [e] = [])
    (queued : next.queued = p.queued) (counted : next.msgsDropped = p.msgsDropped) (missed : next.missed = p.missed) :
    Traced (events ++ [e]) (outcomes ++ []) next := by
  apply traced.step
  · have same := traced.accounted
    rw [← queued] at same
    simpa [none_decoded, handled, lost] using same
  · simpa using counted
  · simpa using missed

theorem receive_traced (traced : Traced events outcomes p) (fields : Frame) :
    Traced (events ++ [.received fields]) (outcomes ++ (receive p fields).2) (receive p fields).1 := by
  have one : decoded [.received fields] = (liveFill fields).toList := filterMap_one _ _
  unfold receive
  cases sent : p.frames.trySend fields with
  | some frames =>
    have queued : Pipeline.queued { p with frames } = p.queued ++ (liveFill fields).toList := by
      simp only [Pipeline.queued, Channel.Queue.trySend_items sent, List.filterMap_append, filterMap_one,
        List.append_assoc]
      rfl
    apply traced.step
    · have accepted := traced.accounted.accept (liveFill fields).toList
      rw [one, queued]
      simpa [handled, lost] using accepted
    · rfl
    · rfl
  | none =>
    have shed : lost [.shed fields] = (liveFill fields).toList := filterMap_one _ _
    apply traced.step
    · have refused := traced.accounted.refuse (liveFill fields).toList
      rw [one, shed, show handled [.shed fields] = [] from rfl, List.append_nil]
      exact refused
    · rfl
    · rfl

-- The frame at the head of the queue becomes the fills it makes, which push others out.
theorem broadcast_traced (traced : Traced events outcomes p) {e : PipelineEvent} (none_decoded : decoded [e] = [])
    {fields : Frame} {frames : Channel.Queue dispatchChannelCap Frame} {adapter : BrokerState} {ds : List Delivery}
    (taken : p.frames.items = fields :: frames.items) (made : ds.filterMap liveDelivery = (liveFill fields).toList) :
    Traced (events ++ [e]) (outcomes ++ (broadcast { p with frames, adapter } ds).2)
      (broadcast { p with frames, adapter } ds).1 := by
  have held := traced.accounted
  have head : p.frames.items.filterMap liveFill = ds.filterMap liveDelivery ++ frames.items.filterMap liveFill := by
    rw [taken, made, ← filterMap_one, ← List.filterMap_append]
    rfl
  unfold broadcast
  cases heard : p.fills with
  | none =>
    have none_pending : p.pending = [] := by simp [Pipeline.pending, heard]
    simp only
    apply traced.step
    · have unheard : handled (ds.map .unheard) = [] := by simp [handled, List.filterMap_map]
      have dropped : Channel.Accounted (decoded events)
          (handled outcomes ++ ds.filterMap liveDelivery ++ frames.items.filterMap liveFill) (lost outcomes) := by
        simpa [Pipeline.queued, none_pending, head] using held
      rw [none_decoded, unheard, lost_unheard]
      simpa [Pipeline.queued, Pipeline.pending, heard] using dropped.forfeit
    · simp [List.countP_map, Outcome.isShed]
    · rw [lagged_nothing fun _ => rfl]
      simp [Pipeline.missed, heard, List.countP_map, Function.comp_def, Outcome.isOverwritten]
  | some receiver =>
    have moved := receiver.sendAll_pending ds
    have missed := receiver.sendAll_missed ds
    simp only
    apply traced.step
    · have quiet : handled ((receiver.sendAll ds).2.map .overwritten) = [] := by simp [handled, List.filterMap_map]
      have pending : p.pending.filterMap liveDelivery ++ ds.filterMap liveDelivery =
          (receiver.sendAll ds).2.filterMap liveDelivery ++ (receiver.sendAll ds).1.pending.filterMap liveDelivery := by
        rw [← List.filterMap_append, ← List.filterMap_append, moved]
        simp [Pipeline.pending, heard]
      have before : Channel.Accounted (decoded events)
          (handled outcomes ++ (receiver.sendAll ds).2.filterMap liveDelivery ++
            ((receiver.sendAll ds).1.pending.filterMap liveDelivery ++ frames.items.filterMap liveFill))
          (lost outcomes) := by
        rw [Pipeline.queued, head, ← List.append_assoc (p.pending.filterMap liveDelivery), pending] at held
        simpa only [List.append_assoc] using held
      rw [none_decoded, quiet, lost_overwritten, List.append_nil, List.append_nil]
      exact before.forfeit
    · simp [List.countP_map, Outcome.isShed]
    · rw [lagged_nothing fun _ => rfl]
      simp [Pipeline.missed, heard, missed, List.countP_map, Function.comp_def, Outcome.isOverwritten]

theorem pump_traced (traced : Traced events outcomes p) :
    Traced (events ++ [.pumped]) (outcomes ++ (pumpFills p).2) (pumpFills p).1 := by
  unfold pumpFills
  cases heard : p.fills with
  | none => exact traced.quiet rfl rfl rfl rfl
  | some receiver =>
    obtain ⟨pending, missed, bounded⟩ := receiver
    by_cases behind : missed ≠ 0
    · simp only [Channel.Receiver.recv, behind, ne_eq, not_false_eq_true, if_true]
      apply traced.step
      · simpa [Pipeline.queued, Pipeline.pending, heard, decoded, handled, lost] using traced.accounted
      · rfl
      · simp [Pipeline.missed, heard, Outcome.lagCount, Outcome.isOverwritten]
    · have told : missed = 0 := not_not.mp behind
      subst told
      cases pending with
      | nil =>
        apply traced.quiet
        · rfl
        · simp [Channel.Receiver.recv, Pipeline.queued, Pipeline.pending, heard]
        · rfl
        · simp [Channel.Receiver.recv, Pipeline.missed, heard]
      | cons delivery rest =>
        change Traced _ (outcomes ++ [.handled delivery])
          { p with fills := some ⟨rest, 0, Nat.le_of_succ_le bounded⟩ }
        apply traced.step
        · have held := traced.accounted
          have one : handled [.handled delivery] = (liveDelivery delivery).toList := filterMap_one _ _
          have first : (delivery :: rest).filterMap liveDelivery =
              (liveDelivery delivery).toList ++ rest.filterMap liveDelivery := by
            rw [← filterMap_one, ← List.filterMap_append]
            rfl
          simp only [Pipeline.queued, Pipeline.pending, heard, Option.map_some, Option.getD_some, first] at held
          rw [one]
          simpa [Pipeline.queued, Pipeline.pending, decoded, lost] using held
        · rfl
        · simp [Pipeline.missed, heard, Outcome.lagCount, Outcome.isOverwritten]

theorem step_traced (chrono : Chrono) (publisher : Bool) (traced : Traced events outcomes p) (e : PipelineEvent) :
    Traced (events ++ [e]) (outcomes ++ (pipelineStep chrono publisher p e).2)
      (pipelineStep chrono publisher p e).1 := by
  cases e with
  | received fields => exact receive_traced traced fields
  | dispatched now =>
    simp only [pipelineStep, dispatchNext]
    cases taken : p.frames.recv with
    | none => exact traced.quiet rfl rfl rfl rfl
    | some head => exact broadcast_traced traced rfl (Channel.Queue.recv_items taken) (dispatched_live head.1)
  | fillsRequested reqId => exact traced.quiet rfl rfl rfl rfl
  | fillsTimedOut reqId => exact traced.quiet rfl rfl rfl rfl
  | subscribed =>
    simp only [pipelineStep]
    cases heard : p.fills with
    | none =>
      apply traced.quiet
      · rfl
      · simp [Pipeline.queued, Pipeline.pending, heard, Channel.Receiver.new]
      · rfl
      · simp [Pipeline.missed, heard, Channel.Receiver.new]
    | some receiver => exact traced.quiet rfl rfl rfl rfl
  | pumped => exact pump_traced traced

end Trace

theorem step_overflows (chrono : Chrono) (publisher : Bool) (p : Pipeline) (e : PipelineEvent) :
    ∀ outcome ∈ (pipelineStep chrono publisher p e).2, Overflows p e outcome := by
  intro outcome member
  cases e with
  | received fields =>
    simp only [pipelineStep, receive] at member
    split at member
    · cases member
    · rename_i full
      rw [List.mem_singleton] at member
      rw [member]
      exact ⟨rfl, Channel.Queue.trySend_full.mp full⟩
  | dispatched now =>
    simp only [pipelineStep, dispatchNext] at member
    split at member
    · cases member
    · simp only [broadcast] at member
      split at member
      · rename_i receiver heard
        obtain ⟨delivery, out, rfl⟩ := List.mem_map.mp member
        have full := Channel.Receiver.sendAll_overwrites (by simpa using dispatch_fills _) out
        simpa [Overflows, Pipeline.pending, heard] using full
      · rename_i unheard
        obtain ⟨delivery, out, rfl⟩ := List.mem_map.mp member
        exact unheard
  | subscribed =>
    simp only [pipelineStep] at member
    split at member <;> cases member
  | pumped =>
    simp only [pipelineStep, pumpFills] at member
    split at member
    · cases member
    · split at member
      · rw [List.mem_singleton] at member
        rw [member]
        trivial
      · rw [List.mem_singleton] at member
        rw [member]
        trivial
      · cases member
  | _ => cases member

def Delivered (chrono : Chrono) (publisher : Bool) (events : List PipelineEvent) : Prop :=
  decoded events = handled (Machine.emitted (pipelineStep chrono publisher) .start events) ++
    (Machine.after (pipelineStep chrono publisher) .start events).queued

theorem run_traced (chrono : Chrono) (publisher : Bool) (events : List PipelineEvent) :
    Traced events (Machine.emitted (pipelineStep chrono publisher) .start events)
      (Machine.after (pipelineStep chrono publisher) .start events) :=
  Machine.traces (s := .start) Traced (fun _ _ _ e traced => step_traced chrono publisher traced e)
    ⟨.start, rfl, rfl⟩ events

theorem received_queued (chrono : Chrono) (publisher : Bool) {p : Pipeline} {frames : List Frame}
    (room : p.frames.items.length + frames.length ≤ dispatchChannelCap) :
    (Machine.after (pipelineStep chrono publisher) p (frames.map .received)).frames.items =
      p.frames.items ++ frames := by
  induction frames generalizing p with
  | nil => simp [Machine.after]
  | cons fields rest next =>
    rw [List.length_cons] at room
    obtain ⟨frames, sent, items⟩ := Channel.Queue.trySend_room (x := fields)
      (show p.frames.items.length < dispatchChannelCap by omega)
    have stepped : (pipelineStep chrono publisher p (.received fields)).1 = { p with frames } := by
      simp only [pipelineStep, receive, sent]
    simp only [List.map_cons, Machine.after, stepped]
    rw [next, items, List.append_assoc]
    · rfl
    · rw [items, List.length_append, List.length_singleton]
      omega

-- Whatever fills the channel before the dispatcher runs, an execution behind it is lost.
theorem full_loses (chrono : Chrono) (publisher : Bool) {frames : List Frame} {execution : Frame} {fill : Fill}
    (full : frames.length = dispatchChannelCap) (live : liveFill execution = some fill) :
    ¬Delivered chrono publisher (.subscribed :: frames.map .received ++ [.received execution]) := by
  intro delivered
  have none_lost := (run_traced chrono publisher
    (.subscribed :: frames.map .received ++ [.received execution])).accounted.complete.length_eq
  rw [← delivered, List.length_append] at none_lost
  have room : (pipelineStep chrono publisher .start .subscribed).1.frames.items.length + frames.length ≤
      dispatchChannelCap := by
    simp [pipelineStep, Pipeline.start, Channel.Queue.empty, full]
  have queued := received_queued chrono publisher room
  have shed : (pipelineStep chrono publisher
      (Machine.after (pipelineStep chrono publisher) .start (.subscribed :: frames.map .received))
      (.received execution)).2 = [.shed execution] := by
    have none_left : Channel.Queue.trySend (Machine.after (pipelineStep chrono publisher) .start
        (.subscribed :: frames.map .received)).frames execution = none := by
      apply Channel.Queue.trySend_full.mpr
      rw [Machine.after, queued]
      exact full
    simp only [pipelineStep, receive, none_left]
  have one_lost : lost [.shed execution] = [fill] := by
    rw [show lost [.shed execution] = (liveFill execution).toList from filterMap_one _ _, live]
    rfl
  rw [Machine.emitted_append, lost_append, List.length_append] at none_lost
  simp only [Machine.emitted, List.append_nil] at none_lost
  rw [shed, one_lost, List.length_singleton] at none_lost
  omega

def tickFrame : Frame := ["1", "6", "1001", "1", "0.05", "3", "0"]

-- As many ticks as the channel holds, and one live execution behind them.
theorem burst_loses_execution :
    ¬Delivered noDates false (.subscribed :: (List.replicate dispatchChannelCap tickFrame).map .received ++
      [.received (executionFrame "-1")]) := by
  obtain ⟨fill, live⟩ : ∃ fill, liveFill (executionFrame "-1") = some fill :=
    Option.isSome_iff_exists.mp (by decide +kernel)
  exact full_loses noDates false List.length_replicate live

theorem executions_accounted (chrono : Chrono) (publisher : Bool) (events : List PipelineEvent) :
    let p := Machine.after (pipelineStep chrono publisher) .start events
    let outcomes := Machine.emitted (pipelineStep chrono publisher) .start events
    Channel.Accounted (decoded events) (handled outcomes ++ p.queued) (lost outcomes) ∧
      (lost outcomes = [] → Delivered chrono publisher events) ∧
      p.msgsDropped = outcomes.countP (·.isShed) ∧
      p.missed + (outcomes.map (·.lagCount)).sum = outcomes.countP (·.isOverwritten) ∧
      ∀ past e, past ++ [e] <+: events →
        ∀ outcome ∈ (pipelineStep chrono publisher (Machine.after (pipelineStep chrono publisher) .start past) e).2,
          Overflows (Machine.after (pipelineStep chrono publisher) .start past) e outcome := by
  intro p outcomes
  have traced := run_traced chrono publisher events
  refine ⟨traced.accounted, ?_, traced.counted, traced.reported, fun past e _ => step_overflows chrono publisher _ e⟩
  intro none_lost
  have books : Channel.Accounted (decoded events) (handled outcomes ++ p.queued) [] := none_lost ▸ traced.accounted
  exact books.whole.symm

-- What neither channel may lose: only frames of market data may be shed.
def Outcome.Sheddable : Outcome → Prop
  | .shed fields => isMarketData fields = true
  | .overwritten _ => False
  | _ => True

structure Lossless (chrono : Chrono) (publisher : Bool) (events : List PipelineEvent) : Prop where
  delivered : Delivered chrono publisher events
  shed : ∀ outcome ∈ Machine.emitted (pipelineStep chrono publisher) .start events, outcome.Sheddable

section Exact

variable {chrono : Chrono} {publisher : Bool} {p : Pipeline}

theorem execution_streams {s : BrokerState} {now : ℕ} {e : ExecutionMsg} (fields : Frame)
    (parsed : parseInbound fields = .ok (.execution e)) :
    broadcastFills (dispatch chrono now publisher s fields).2 = [] ↔ ¬Streams s fields := by
  have own : Streams s fields ↔ (e.side = "BOT" ∨ e.side = "SLD") ∧
      ¬(0 < e.reqId ∧ (s.pendingExecutions.get e.reqId).isSome) := by
    constructor
    · intro streams
      obtain ⟨other, same, rest⟩ := streams
      cases parsed.symm.trans same
      exact rest
    · intro rest
      exact ⟨e, parsed, rest⟩
  simp only [own, dispatch, parsed, route, routeExecution, executionToFill]
  by_cases bought : e.side = "BOT"
  · by_cases waiting : 0 < e.reqId ∧ (s.pendingExecutions.get e.reqId).isSome
    · simp [bought, waiting, broadcastFills]
    · simp [bought, waiting, broadcastFills]
  · by_cases sold : e.side = "SLD"
    · by_cases waiting : 0 < e.reqId ∧ (s.pendingExecutions.get e.reqId).isSome
      · simp [sold, waiting, broadcastFills]
      · simp [sold, waiting, broadcastFills]
    · simp [bought, sold, broadcastFills]

theorem dispatch_streams {s : BrokerState} {now : ℕ} (fields : Frame) :
    broadcastFills (dispatch chrono now publisher s fields).2 = [] ↔ ¬Streams s fields := by
  cases parsed : parseInbound fields with
  | error fault =>
    have quiet : ¬Streams s fields := by
      intro streams
      obtain ⟨e, same, -⟩ := streams
      cases parsed.symm.trans same
    simp [dispatch, parsed, quiet, broadcastFills]
  | ok msg =>
    by_cases execution : ∃ e, msg = .execution e
    · obtain ⟨e, rfl⟩ := execution
      exact execution_streams fields parsed
    · have quiet : ¬Streams s fields := by
        intro streams
        obtain ⟨e, same, -⟩ := streams
        exact execution ⟨e, Except.ok.inj (parsed.symm.trans same)⟩
      simp only [dispatch, parsed, quiet, not_false_eq_true, iff_true]
      exact route_unstreamed fun e same => execution ⟨e, same⟩

theorem live_streams {s : BrokerState} {fields : Frame} {e : ExecutionMsg} (live : liveExecution fields = some e) :
    Streams s fields := by
  obtain ⟨parsed, unasked, side⟩ := live_parsed live
  exact ⟨e, parsed, side, fun waiting => unasked waiting.1⟩

theorem liveFill_none {fields : Frame} : liveFill fields = none ↔ liveExecution fields = none := by
  unfold liveFill
  cases live : liveExecution fields with
  | none => simp
  | some e =>
    obtain ⟨-, -, side⟩ := live_parsed live
    rcases side with bought | sold
    · simp [executionToFill, bought]
    · simp [executionToFill, sold]

-- A step loses nothing but market data.
def Safe (chrono : Chrono) (publisher : Bool) (p : Pipeline) (e : PipelineEvent) : Prop :=
  lost (pipelineStep chrono publisher p e).2 = [] ∧
    ∀ outcome ∈ (pipelineStep chrono publisher p e).2, outcome.Sheddable

theorem receive_safe (fields : Frame) : Safe chrono publisher p (.received fields) ↔ Keeps p (.received fields) := by
  unfold Safe Keeps
  simp only [pipelineStep, receive]
  cases sent : p.frames.trySend fields with
  | some frames =>
    have room : p.frames.items.length < dispatchChannelCap := by
      apply lt_of_le_of_ne p.frames.bounded
      intro full
      cases sent.symm.trans (Channel.Queue.trySend_full.mpr full)
    simp [room, lost]
  | none =>
    have full := Channel.Queue.trySend_full.mp sent
    have gone : lost [.shed fields] = (liveFill fields).toList := filterMap_one _ _
    simp only [gone, full, lt_irrefl, false_or, List.mem_singleton, forall_eq]
    constructor
    · exact And.right
    · intro market
      refine ⟨?_, market⟩
      rw [liveFill_none.mpr (market_unlive market)]
      rfl

theorem dispatch_safe (now : ℕ) : Safe chrono publisher p (.dispatched now) ↔ Keeps p (.dispatched now) := by
  unfold Safe Keeps
  simp only [pipelineStep, dispatchNext]
  cases taken : p.frames.recv with
  | none =>
    have empty := Channel.Queue.recv_empty.mp taken
    simp [empty, lost]
  | some head =>
    obtain ⟨fields, frames⟩ := head
    have items := Channel.Queue.recv_items taken
    have made := @dispatched_live chrono publisher now p.adapter fields
    have streams := @dispatch_streams chrono publisher p.adapter now fields
    have one := @dispatch_fills chrono publisher now p.adapter fields
    simp only [items, List.head?_cons, Option.mem_def, Option.some.injEq, forall_eq']
    generalize broadcastFills (dispatch chrono now publisher p.adapter fields).2 = fills at made streams one
    unfold broadcast
    cases heard : p.fills with
    | none =>
      simp only [lost_unheard, made, Option.toList_eq_nil_iff, liveFill_none]
      constructor
      · exact fun given _ => given.1
      · intro given
        refine ⟨?_, ?_⟩
        · cases live : liveExecution fields with
          | none => rfl
          | some e => exact live ▸ given (live_streams live)
        · simp [Outcome.Sheddable]
    | some receiver =>
      match fills, one with
      | [], _ =>
        have quiet := streams.mp rfl
        simp [quiet, Channel.Receiver.sendAll, lost]
      | [fill], _ =>
        have streamed : Streams p.adapter fields := by simpa using streams
        simp only [streamed, true_imp_iff, List.map_cons, List.map_nil, Channel.Receiver.sendAll, List.append_nil]
        rw [← Channel.Receiver.send_room (x := Delivery.mk fields fill)]
        cases (receiver.send ⟨fields, fill⟩).2 with
        | nil => simp [lost]
        | cons out rest => simp [Outcome.Sheddable]

theorem step_safe (e : PipelineEvent) : Safe chrono publisher p e ↔ Keeps p e := by
  cases e with
  | received fields => exact receive_safe fields
  | dispatched now => exact dispatch_safe now
  | fillsRequested reqId => simp [Safe, Keeps, pipelineStep, lost]
  | fillsTimedOut reqId => simp [Safe, Keeps, pipelineStep, lost]
  | subscribed =>
    simp only [Safe, Keeps, pipelineStep, iff_true]
    cases p.fills <;> simp [lost]
  | pumped =>
    simp only [Safe, Keeps, pipelineStep, pumpFills, iff_true]
    cases p.fills with
    | none => simp [lost]
    | some receiver =>
      simp only
      cases receiver.recv.2 <;> simp [lost, Outcome.Sheddable]

-- What a run has lost, its steps have lost.
theorem run_safe (events : List PipelineEvent) :
    Machine.Along (pipelineStep chrono publisher) Keeps p events ↔
      lost (Machine.emitted (pipelineStep chrono publisher) p events) = [] ∧
        ∀ outcome ∈ Machine.emitted (pipelineStep chrono publisher) p events, outcome.Sheddable := by
  induction events generalizing p with
  | nil => simp [Machine.Along, Machine.emitted, lost]
  | cons e rest next =>
    rw [Machine.Along, next, ← step_safe, Safe, Machine.emitted, lost_append, List.append_eq_nil_iff,
      List.forall_mem_append]
    exact and_and_and_comm

theorem delivered_lost (events : List PipelineEvent) : Delivered chrono publisher events ↔
    lost (Machine.emitted (pipelineStep chrono publisher) .start events) = [] := by
  obtain ⟨books, whole, -⟩ := executions_accounted chrono publisher events
  constructor
  · intro delivered
    have total := books.complete.length_eq
    rw [← delivered, List.length_append] at total
    exact List.length_eq_zero_iff.mp (by omega)
  · exact whole

theorem lossless_along (events : List PipelineEvent) :
    Lossless chrono publisher events ↔ Machine.Along (pipelineStep chrono publisher) Keeps .start events := by
  rw [run_safe, ← delivered_lost]
  constructor
  · exact fun lossless => ⟨lossless.delivered, lossless.shed⟩
  · exact fun given => ⟨given.1, given.2⟩

end Exact

theorem executions_delivered_iff (chrono : Chrono) (publisher : Bool) (events : List PipelineEvent) :
    (∀ past, past <+: events → Lossless chrono publisher past) ↔
      Machine.Along (pipelineStep chrono publisher) Keeps .start events := by
  constructor
  · intro throughout
    exact (lossless_along events).mp (throughout events List.prefix_rfl)
  · intro along past within
    obtain ⟨rest, rfl⟩ := within
    exact (lossless_along past).mpr ((Machine.along_append _ past rest).mp along).1

end Corsair.Daemon
