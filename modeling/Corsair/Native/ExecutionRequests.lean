import Corsair.Native.ContractRequests
import Corsair.Native.Layout

namespace Corsair.Native

open BrokerApi

-- executionDataEnd is type 55, [55, version, reqId].
def executionsEndOf (frame : Frame) : Option ℤ :=
  match frame with
  | head :: _ :: id :: _ => if parseInt head = .ok 55 then (parseInt id).toOption else none
  | _ => none

-- An executionData frame, [11, version, reqId, ..], with the numbers its parser reads
-- for numbers.
structure ExecutionData (frame : Frame) : Prop where
  type : parseInt (fieldOr "" frame 0) = .ok 11
  whole : 24 ≤ frame.length
  ids : ∀ i ∈ [2, 3, 22, 23], ∃ n, parseInt (fieldOr "" frame i) = .ok n
  conId : ∃ n, parseInt64 (fieldOr "" frame 4) = .ok n
  figures : ∀ i ∈ [8, 20, 21], ∃ x, parseF64 (fieldOr "" frame i) = .ok x
  liquidation : ∃ n, parseInt (fieldOr "0" frame 24) = .ok n
  totals : ∀ i ∈ [25, 26], ∃ x, parseF64 (fieldOr "0" frame i) = .ok x

def executionOf (frame : Frame) : Option ExecutionMsg :=
  match parseInbound frame with
  | .ok (.execution e) => some e
  | _ => none

-- The recent_fills calls that wait, none of which has been sent an execution yet.
def FillsWaiting (s : BrokerState) (requests : List ℤ) : Prop :=
  ∀ r, s.pendingExecutions.get r = if r ∈ requests then some [] else none

-- Asked for and not ended yet.
def Outstanding (requests : List ℤ) (before : List Arrival) (r : ℤ) : Prop :=
  r ∈ requests ∧ some r ∉ before.map (executionsEndOf ·.frame)

instance (requests : List ℤ) (before : List Arrival) (r : ℤ) : Decidable (Outstanding requests before r) :=
  inferInstanceAs (Decidable (_ ∧ _))

-- The fill a frame reports for a request, if its execution has a recognised side.
def ownFill (r : ℤ) (a : Arrival) : Option Fill := do
  let e ← executionOf a.frame
  if e.reqId = r then executionToFill a.now e else none

def ownFills (r : ℤ) (arrivals : List Arrival) : List Fill := arrivals.filterMap (ownFill r)

def Emission.delivers : Emission → Bool
  | .fill _ | .executions .. => true
  | _ => false

section Demux

variable (chrono : Chrono) (publisher : Bool)

-- The executions an arrival hands on: to a waiter, or to everybody.
def delivered (s : BrokerState) (a : Arrival) : List Emission :=
  (arrive chrono publisher s a).2.filter Emission.delivers

-- What a fill is to say of the execution it was made of.
structure Reports (now : ℕ) (e : ExecutionMsg) (fill : Fill) : Prop where
  side : e.side = "BOT" ∧ fill.side = .buy ∨ e.side = "SLD" ∧ fill.side = .sell
  instrumentId : fill.instrumentId = wrapU64 e.contract.conId
  orderId : fill.orderId = wrapU64 e.orderId
  execId : fill.execId = e.execId
  qty : fill.qty = e.shares.asU32
  price : fill.price = e.price
  rest : fill.timestampNs = now ∧ fill.commission = none

structure ExecutionsDemuxed (s : BrokerState) (requests : List ℤ) (arrivals : List Arrival) : Prop where
  decoded : ∀ a ∈ arrivals, ExecutionData a.frame → (executionOf a.frame).isSome
  laid : ∀ a ∈ arrivals, ∀ e, executionOf a.frame = some e → (InboundMsg.execution e).ReadFrom (layout 11) a.frame
  recognised : ∀ a ∈ arrivals, ∀ e, executionOf a.frame = some e →
    ((executionToFill a.now e).isSome ↔ e.side = "BOT" ∨ e.side = "SLD")
  carried : ∀ a ∈ arrivals, ∀ e fill, executionOf a.frame = some e → executionToFill a.now e = some fill →
    Reports a.now e fill
  resolved : ∀ before a after, arrivals = before ++ a :: after → ∀ r, executionsEndOf a.frame = some r →
    delivered chrono publisher (Machine.after (arrive chrono publisher) s before) a =
      if Outstanding requests before r then [.executions r (.ok (ownFills r before))] else []
  kept : ∀ before a after, arrivals = before ++ a :: after → ∀ e, executionOf a.frame = some e →
    Outstanding requests before e.reqId →
    delivered chrono publisher (Machine.after (arrive chrono publisher) s before) a = []
  live : ∀ before a after, arrivals = before ++ a :: after → ∀ e, executionOf a.frame = some e → e.reqId ≤ 0 →
    delivered chrono publisher (Machine.after (arrive chrono publisher) s before) a =
      ((executionToFill a.now e).map .fill).toList
  others : ∀ before a after, arrivals = before ++ a :: after → executionOf a.frame = none →
    executionsEndOf a.frame = none →
    delivered chrono publisher (Machine.after (arrive chrono publisher) s before) a = []

end Demux

section Decoded

theorem end_parsed {frame : Frame} {r : ℤ} (ends : executionsEndOf frame = some r) :
    parseInbound frame = .ok (.executionEnd r) := by
  match frame with
  | [] | [_] | [_, _] => cases ends
  | head :: version :: id :: rest =>
    unfold executionsEndOf at ends
    dsimp only at ends
    split at ends
    · rename_i type
      have value : parseInt id = .ok r := by
        cases parsed : parseInt id with
        | error fault => simp [parsed, Except.toOption] at ends
        | ok value => simpa [parsed, Except.toOption] using ends
      unfold parseInbound
      simp only [type, fieldOr]
      change (parseInt id >>= fun r => pure (InboundMsg.executionEnd r)) = _
      rw [value]
      rfl
    · cases ends

theorem typed_end {head : String} {rest : Frame} {ty : ℤ} (type : parseInt head = .ok ty) (other : ty ≠ 55) :
    Builds (fun msg => ∀ r, msg ≠ .executionEnd r) (parseInbound (head :: rest)) := by
  refine builds_read fun read same => ?_
  obtain rfl := Except.ok.inj (type.symm.trans same)
  split
  case h_19 => exact absurd rfl other
  all_goals
    try simp only [parseTickPrice, parseTickSize, parseTickOptionComputation, parseOrderStatus, parseError,
      parseAccountValue, parseContractDetails, parseExecution, parseCommission, parsePosition, parseOpenOrder]
    repeat (refine builds_bind fun _ => ?_)
    refine builds_pure ?_
    intro r equal
    cases equal

-- An end frame without a request id stands for the request 0, which nobody made.
theorem parsed_end {frame : Frame} {r : ℤ} (parsed : parseInbound frame = .ok (.executionEnd r)) :
    executionsEndOf frame = some r ∨ r = 0 := by
  cases frame with
  | nil => cases parsed
  | cons head rest =>
    cases type : parseInt head with
    | error fault =>
      simp only [parseInbound, type] at parsed
      cases parsed
    | ok ty =>
      by_cases ended : ty = 55
      · subst ended
        have value : parseInt (fieldOr "0" (head :: rest) 2) = .ok r := by
          simp only [parseInbound, type] at parsed
          change (parseInt (fieldOr "0" (head :: rest) 2) >>= fun r => pure (InboundMsg.executionEnd r)) = _ at parsed
          cases id : parseInt (fieldOr "0" (head :: rest) 2) with
          | error fault =>
            rw [id] at parsed
            cases parsed
          | ok id =>
            rw [id] at parsed
            cases parsed
            rfl
        have zero : parseInt (fieldOr "0" [] 2) = .ok 0 := by decide +kernel
        cases rest with
        | nil => exact .inr (Except.ok.inj (value.symm.trans zero))
        | cons version rest =>
          cases rest with
          | nil => exact .inr (Except.ok.inj (value.symm.trans zero))
          | cons id others =>
            left
            unfold executionsEndOf
            simp only [type, if_true]
            change parseInt id = .ok r at value
            rw [value]
            rfl
      · exact absurd rfl (typed_end type ended _ parsed r)

end Decoded

section Demux

variable {chrono : Chrono} {publisher : Bool} {now : ℕ}

-- No other message touches the accumulators or hands on an execution.
theorem route_silent {s : BrokerState} {msg : InboundMsg} (no_execution : ∀ e, msg ≠ .execution e)
    (no_end : ∀ r, msg ≠ .executionEnd r) :
    (route chrono now publisher s msg).1.pendingExecutions = s.pendingExecutions ∧
      (route chrono now publisher s msg).2.filter Emission.delivers = [] := by
  have ticks : ∀ reqId kind tick, (routeTick publisher s reqId kind tick).filter Emission.delivers = [] := by
    intro reqId kind tick
    unfold routeTick
    split
    · unfold sendTick
      split <;> rfl
    · rfl
  have acks : ∀ (s : BrokerState) orderId,
      (resolvePlaceAck s orderId (.ok ())).1.pendingExecutions = s.pendingExecutions ∧
        (resolvePlaceAck s orderId (.ok ())).2.filter Emission.delivers = [] := by
    intro s orderId
    unfold resolvePlaceAck
    dsimp only
    split <;> exact ⟨rfl, rfl⟩
  cases msg with
  | execution e => exact absurd rfl (no_execution e)
  | executionEnd r => exact absurd rfl (no_end r)
  | openOrder o =>
    simp only [route, routeOpenOrder, acks]
    split <;> exact ⟨rfl, trivial⟩
  | orderStatus o =>
    simp only [route, routeOrderStatus]
    split
    · simp only [acks, List.filter_append]
      exact ⟨trivial, rfl⟩
    · exact ⟨rfl, rfl⟩
  | position p =>
    simp only [route, routePosition]
    split
    · exact ⟨rfl, rfl⟩
    · split <;> exact ⟨rfl, rfl⟩
  | contractDetailsEnd reqId =>
    simp only [route, routeContractDetailsEnd, true_and]
    split <;> rfl
  | tickPrice t => exact ⟨rfl, ticks _ _ _⟩
  | tickSize t => exact ⟨rfl, ticks _ _ _⟩
  | error e =>
    simp only [route, routeError, List.filter_append]
    refine ⟨trivial, ?_⟩
    split <;> split <;> rfl
  | _ => exact ⟨rfl, rfl⟩

-- What the accumulators hold: for each outstanding request its own fills, in order.
def FillsHeld (requests : List ℤ) (before : List Arrival) (s : BrokerState) : Prop :=
  ∀ r, s.pendingExecutions.get r = if Outstanding requests before r then some (ownFills r before) else none

theorem outstanding_snoc {requests : List ℤ} {before : List Arrival} {a : Arrival} {r : ℤ} :
    Outstanding requests (before ++ [a]) r ↔ Outstanding requests before r ∧ executionsEndOf a.frame ≠ some r := by
  unfold Outstanding
  rw [List.map_append, List.mem_append]
  simp only [List.map_cons, List.map_nil, List.mem_singleton, not_or, and_assoc, ne_eq]
  exact and_congr_right fun _ => and_congr_right fun _ => not_congr eq_comm

theorem fills_snoc (r : ℤ) (before : List Arrival) (a : Arrival) :
    ownFills r (before ++ [a]) = ownFills r before ++ (ownFill r a).toList := by
  unfold ownFills
  rw [List.filterMap_append]
  cases found : ownFill r a <;> simp [found]

theorem silent_held {requests : List ℤ} {before : List Arrival} {s next : BrokerState} {a : Arrival}
    (held : FillsHeld requests before s) (same : next.pendingExecutions = s.pendingExecutions)
    (none_own : ∀ r ∈ requests, ownFill r a = none) (no_end : ∀ r ∈ requests, executionsEndOf a.frame ≠ some r) :
    FillsHeld requests (before ++ [a]) next := by
  intro r
  rw [same, held r]
  by_cases open_request : Outstanding requests before r
  · rw [if_pos open_request, if_pos (outstanding_snoc.mpr ⟨open_request, no_end r open_request.1⟩), fills_snoc,
      none_own r open_request.1]
    exact congrArg some (List.append_nil _).symm
  · rw [if_neg open_request, if_neg]
    intro later
    exact open_request (outstanding_snoc.mp later).1

section Step

variable {requests : List ℤ} {before : List Arrival} {s : BrokerState} {a : Arrival}

theorem execution_frame {e : ExecutionMsg} (parsed : parseInbound a.frame = .ok (.execution e)) :
    executionOf a.frame = some e ∧ executionsEndOf a.frame = none ∧
      ∀ r, ownFill r a = if e.reqId = r then executionToFill a.now e else none := by
  have own : executionOf a.frame = some e := by
    rw [executionOf, parsed]
  refine ⟨own, ?_, ?_⟩
  · cases ends : executionsEndOf a.frame with
    | none => rfl
    | some r =>
      rw [end_parsed ends] at parsed
      cases parsed
  · intro r
    rw [ownFill, own]
    rfl

theorem execution_read {frame : Frame} {e : ExecutionMsg} (read : executionOf frame = some e) :
    parseInbound frame = .ok (.execution e) := by
  unfold executionOf at read
  split at read
  · cases read
    assumption
  · cases read

theorem field_or {frame : Frame} {i : ℕ} (inside : i < frame.length) : field frame i = .ok (fieldOr "" frame i) := by
  simp [field, fieldOr, inside]

theorem execution_decodes {frame : Frame} (data : ExecutionData frame) : (executionOf frame).isSome := by
  obtain ⟨type, whole, ids, ⟨conId, contract⟩, figures, ⟨liquidation, liquid⟩, totals⟩ := data
  obtain ⟨reqId, request⟩ := ids 2 (by simp)
  obtain ⟨orderId, order⟩ := ids 3 (by simp)
  obtain ⟨permId, perm⟩ := ids 22 (by simp)
  obtain ⟨clientId, client⟩ := ids 23 (by simp)
  obtain ⟨strike, struck⟩ := figures 8 (by simp)
  obtain ⟨shares, traded⟩ := figures 20 (by simp)
  obtain ⟨price, paid⟩ := figures 21 (by simp)
  obtain ⟨cumQty, total⟩ := totals 25 (by simp)
  obtain ⟨avgPrice, average⟩ := totals 26 (by simp)
  have enough : needFields "execDetails" 24 frame = .ok () := if_neg (not_lt.mpr whole)
  have inside (i : ℕ) (small : i < 24) : field frame i = .ok (fieldOr "" frame i) := field_or (lt_of_lt_of_le small whole)
  have parsed : ∃ e, parseExecution frame = .ok (.execution e) := by
    unfold parseExecution
    simp only [enough, inside, Nat.reduceLT, request, order, contract, struck, traded, paid, perm, client, liquid, total,
      average, bind, Except.bind, pure, Except.pure]
    exact ⟨_, rfl⟩
  obtain ⟨e, read⟩ := parsed
  have decoded : parseInbound frame = .ok (.execution e) := by
    cases frame with
    | nil => simp at whole
    | cons head rest =>
      change parseInt head = .ok 11 at type
      unfold parseInbound
      simp only [type, bind, Except.bind]
      exact read
  rw [executionOf, decoded]
  rfl

theorem execution_laid {frame : Frame} {e : ExecutionMsg} (read : executionOf frame = some e) :
    (InboundMsg.execution e).ReadFrom (layout 11) frame := by
  obtain ⟨_, ty, _, _, laid⟩ := (parseInbound_inFrame frame).2 _ (execution_read read)
  have named := (laid ⟨"cumQty", .float e.cumQty⟩ (by simp [InboundMsg.readings])).listed
  have type : ty = 11 := by
    unfold layout at named
    split at named <;> simp at named
    rfl
  rwa [type] at laid
theorem other_frame (no_execution : ∀ e, parseInbound a.frame ≠ .ok (.execution e)) :
    executionOf a.frame = none ∧ ∀ r, ownFill r a = none := by
  have none_read : executionOf a.frame = none := by
    unfold executionOf
    split
    · exact absurd ‹_› (no_execution _)
    · rfl
  refine ⟨none_read, ?_⟩
  intro r
  rw [ownFill, none_read]
  rfl

theorem arrive_parsed {msg : InboundMsg} (parsed : parseInbound a.frame = .ok msg) :
    arrive chrono publisher s a = route chrono a.now publisher s msg := by
  unfold arrive dispatch
  rw [parsed]

-- An execution is kept for its request exactly while that request is outstanding.
theorem execution_cases (positive : ∀ r ∈ requests, 0 < r) (held : FillsHeld requests before s) {e : ExecutionMsg}
    (parsed : parseInbound a.frame = .ok (.execution e)) :
    arrive chrono publisher s a = match executionToFill a.now e with
      | none => (s, [])
      | some fill =>
        if Outstanding requests before e.reqId then
          ({ s with pendingExecutions := s.pendingExecutions.modify e.reqId (· ++ [fill]) }, [])
        else (s, [.fill fill]) := by
  rw [arrive_parsed parsed]
  change routeExecution a.now s e = _
  unfold routeExecution
  cases executionToFill a.now e with
  | none => rfl
  | some fill =>
    dsimp only
    have waits : (0 < e.reqId ∧ (s.pendingExecutions.get e.reqId).isSome) ↔ Outstanding requests before e.reqId := by
      rw [held e.reqId]
      constructor
      · intro given
        by_contra closed
        simp [closed] at given
      · intro outstanding
        exact ⟨positive e.reqId outstanding.1, by simp [outstanding]⟩
    simp only [waits]

-- The stream of fills has an execution unless a request is collecting it.
theorem execution_delivered (positive : ∀ r ∈ requests, 0 < r) (held : FillsHeld requests before s) {e : ExecutionMsg}
    (read : executionOf a.frame = some e) :
    delivered chrono publisher s a =
      if Outstanding requests before e.reqId then [] else ((executionToFill a.now e).map .fill).toList := by
  unfold delivered
  rw [execution_cases positive held (execution_read read)]
  cases executionToFill a.now e with
  | none => exact (ite_self []).symm
  | some fill =>
    dsimp only
    split
    · rfl
    · rfl

theorem execution_held (positive : ∀ r ∈ requests, 0 < r) (held : FillsHeld requests before s) {e : ExecutionMsg}
    (parsed : parseInbound a.frame = .ok (.execution e)) :
    FillsHeld requests (before ++ [a]) (arrive chrono publisher s a).1 := by
  obtain ⟨-, no_end, own⟩ := execution_frame parsed
  have ends : ∀ r ∈ requests, executionsEndOf a.frame ≠ some r := by simp [no_end]
  rw [execution_cases positive held parsed]
  cases made : executionToFill a.now e with
  | none =>
    refine silent_held held rfl ?_ ends
    intro r _
    rw [own, made]
    exact ite_self _
  | some fill =>
    dsimp only
    by_cases outstanding : Outstanding requests before e.reqId
    · intro r
      rw [if_pos outstanding]
      change (s.pendingExecutions.modify e.reqId (· ++ [fill])).get r = _
      have same : Outstanding requests (before ++ [a]) r ↔ Outstanding requests before r := by
        simp [outstanding_snoc, no_end]
      rw [HashMap.get_modify, fills_snoc, own, made, if_congr same rfl rfl]
      by_cases mine : r = e.reqId
      · subst mine
        rw [if_pos rfl, held, if_pos outstanding, if_pos outstanding, if_pos rfl]
        rfl
      · rw [if_neg mine, held, if_neg (Ne.symm mine)]
        simp
    · rw [if_neg outstanding]
      intro r
      by_cases mine : e.reqId = r
      · subst mine
        have closed : ¬Outstanding requests (before ++ [a]) e.reqId :=
          fun later => outstanding (outstanding_snoc.mp later).1
        rw [if_neg closed]
        exact (held e.reqId).trans (if_neg outstanding)
      · have same : Outstanding requests (before ++ [a]) r ↔ Outstanding requests before r := by
          simp [outstanding_snoc, no_end]
        rw [fills_snoc, own, if_neg mine, if_congr same rfl rfl]
        simpa using held r

theorem end_cases {r : ℤ} (parsed : parseInbound a.frame = .ok (.executionEnd r)) :
    (arrive chrono publisher s a).1.pendingExecutions = s.pendingExecutions.remove r ∧
      delivered chrono publisher s a = match s.pendingExecutions.get r with
        | some accumulated => [.executions r (.ok accumulated)]
        | none => [] := by
  unfold delivered
  rw [arrive_parsed parsed]
  change _ = _ ∧ List.filter _ (routeExecutionEnd s r).2 = _
  unfold routeExecutionEnd
  refine ⟨rfl, ?_⟩
  dsimp only
  cases s.pendingExecutions.get r <;> rfl

theorem end_held (positive : ∀ r ∈ requests, 0 < r) (held : FillsHeld requests before s) {r : ℤ}
    (parsed : parseInbound a.frame = .ok (.executionEnd r)) :
    FillsHeld requests (before ++ [a]) (arrive chrono publisher s a).1 := by
  obtain ⟨-, own⟩ := @other_frame a (by simp [parsed])
  intro other
  rw [(end_cases parsed).1, HashMap.get_remove, fills_snoc, own, held]
  by_cases outstanding : Outstanding requests before other
  · have closes : executionsEndOf a.frame = some other ↔ other = r := by
      constructor
      · intro ends
        have same := (end_parsed ends).symm.trans parsed
        cases same
        rfl
      · rintro rfl
        rcases parsed_end parsed with ends | zero
        · exact ends
        · exact absurd (positive other outstanding.1) (by omega)
    simp only [outstanding_snoc, outstanding, true_and, ne_eq, closes]
    by_cases mine : other = r <;> simp [mine]
  · simp [outstanding_snoc, outstanding]

theorem arrive_held (positive : ∀ r ∈ requests, 0 < r) (held : FillsHeld requests before s) :
    FillsHeld requests (before ++ [a]) (arrive chrono publisher s a).1 := by
  cases parsed : parseInbound a.frame with
  | error fault =>
    have other := @other_frame a (by simp [parsed])
    have unended : ∀ r, executionsEndOf a.frame ≠ some r := by
      intro r ends
      rw [end_parsed ends] at parsed
      cases parsed
    refine silent_held held ?_ (fun r _ => other.2 r) (fun r _ => unended r)
    unfold arrive dispatch
    rw [parsed]
  | ok msg =>
    by_cases execution : ∃ e, msg = .execution e
    · obtain ⟨e, rfl⟩ := execution
      exact execution_held positive held parsed
    by_cases ended : ∃ r, msg = .executionEnd r
    · obtain ⟨r, rfl⟩ := ended
      exact end_held positive held parsed
    have no_execution : ∀ e, msg ≠ .execution e := fun e same => execution ⟨e, same⟩
    have no_end : ∀ r, msg ≠ .executionEnd r := fun r same => ended ⟨r, same⟩
    have other := @other_frame a (by simpa [parsed] using no_execution)
    have unended : ∀ r, executionsEndOf a.frame ≠ some r := by
      intro r ends
      exact no_end r (Except.ok.inj (parsed.symm.trans (end_parsed ends)))
    refine silent_held held ?_ (fun r _ => other.2 r) (fun r _ => unended r)
    rw [arrive_parsed parsed]
    exact (route_silent no_execution no_end).1

end Step

theorem fills_held {requests : List ℤ} {s : BrokerState} (waiting : FillsWaiting s requests)
    (positive : ∀ r ∈ requests, 0 < r) (arrivals : List Arrival) :
    FillsHeld requests arrivals (Machine.after (arrive chrono publisher) s arrivals) := by
  refine Machine.follows (FillsHeld requests) (fun _ _ _ held => arrive_held positive held) ?_ arrivals
  intro r
  rw [waiting r]
  exact if_congr ⟨fun member => ⟨member, List.not_mem_nil⟩, And.left⟩ rfl rfl

end Demux

theorem executionToFill_cases (now : ℕ) (e : ExecutionMsg) :
    (e.side = "BOT" ∨ e.side = "SLD") ∧ (∃ fill, executionToFill now e = some fill ∧ Reports now e fill) ∨
      ¬(e.side = "BOT" ∨ e.side = "SLD") ∧ executionToFill now e = none := by
  unfold executionToFill
  by_cases bought : e.side = "BOT"
  · rw [if_pos bought]
    exact .inl ⟨.inl bought, _, rfl, .inl ⟨bought, rfl⟩, rfl, rfl, rfl, rfl, rfl, rfl, rfl⟩
  · rw [if_neg bought]
    by_cases sold : e.side = "SLD"
    · rw [if_pos sold]
      exact .inl ⟨.inr sold, _, rfl, .inr ⟨sold, rfl⟩, rfl, rfl, rfl, rfl, rfl, rfl, rfl⟩
    · rw [if_neg sold]
      exact .inr ⟨not_or.mpr ⟨bought, sold⟩, rfl⟩

theorem executions_demuxed {chrono : Chrono} {publisher : Bool} {s : BrokerState} {requests : List ℤ}
    (waiting : FillsWaiting s requests) (positive : ∀ r ∈ requests, 0 < r) (arrivals : List Arrival) :
    ExecutionsDemuxed chrono publisher s requests arrivals := by
  have held := fun before => @fills_held chrono publisher requests s waiting positive before
  refine ⟨?_, ?_, ?_, ?_, ?_, ?_, ?_, ?_⟩
  · exact fun a _ => execution_decodes
  · exact fun a _ e => execution_laid
  · intro a _ e _
    rcases executionToFill_cases a.now e with ⟨sided, fill, made, -⟩ | ⟨unsided, unmade⟩
    · simp [made, sided]
    · simp [unmade, unsided]
  · intro a _ e fill _ made
    rcases executionToFill_cases a.now e with ⟨-, other, same, reports⟩ | ⟨-, unmade⟩
    · cases made.symm.trans same
      exact reports
    · cases made.symm.trans unmade
  · intro before a after _ r ends
    rw [(end_cases (end_parsed ends)).2, held before r]
    by_cases outstanding : Outstanding requests before r <;> simp [outstanding]
  · intro before a after _ e read outstanding
    rw [execution_delivered positive (held before) read, if_pos outstanding]
  · intro before a after _ e read unsolicited
    have closed : ¬Outstanding requests before e.reqId := by
      intro outstanding
      exact absurd (positive _ outstanding.1) (by omega)
    rw [execution_delivered positive (held before) read, if_neg closed]
  · intro before a after _ unread unended
    cases parsed : parseInbound a.frame with
    | error fault =>
      unfold delivered arrive dispatch
      rw [parsed]
      rfl
    | ok msg =>
      by_cases ended : ∃ r, msg = .executionEnd r
      · obtain ⟨r, rfl⟩ := ended
        have zero : r = 0 := (parsed_end parsed).resolve_left (by simp [unended])
        have closed : ¬Outstanding requests before r := by
          intro outstanding
          exact absurd (positive r outstanding.1) (by omega)
        rw [(end_cases parsed).2, held before r, if_neg closed]
      · have no_execution : ∀ e, msg ≠ .execution e := by
          intro e same
          rw [executionOf, parsed, same] at unread
          cases unread
        unfold delivered
        rw [arrive_parsed parsed]
        exact (route_silent no_execution fun r same => ended ⟨r, same⟩).2

section Interleaved

def hgExecution (reqId execId side : String) : Frame :=
  ["11", "-1", reqId, "7", "77", "HG", "FUT", "20260626", "0", "", "25000", "COMEX", "USD", "HGM6", "HG", execId,
    "20260601  10:00:00", "DU1", "COMEX", side, "1", "4.5", "900", "0"]

def twoWaiting : BrokerState :=
  { BrokerState.default with pendingExecutions := ((∅ : HashMap ℤ _).set 1000 []).set 1001 [] }

def crossing : List Arrival :=
  [⟨0, hgExecution "1000" "a" "BOT"⟩, ⟨1, hgExecution "-1" "live" "SLD"⟩, ⟨2, hgExecution "1001" "b" "SLD"⟩,
    ⟨3, ["55", "1", "1001"]⟩, ⟨4, hgExecution "1000" "c" "SLD"⟩, ⟨5, ["55", "1", "1000"]⟩]

end Interleaved

theorem executions_demuxed_crossing :
    ExecutionsDemuxed noDates false twoWaiting [1000, 1001] crossing ∧
      (ownFills 1000 crossing).map (·.execId) = ["a", "c"] ∧ (ownFills 1001 crossing).map (·.execId) = ["b"] := by
  refine ⟨executions_demuxed ?_ (by decide) crossing, by decide +kernel, by decide +kernel⟩
  intro r
  simp only [twoWaiting, HashMap.get_set, List.mem_cons, List.not_mem_nil, or_false]
  by_cases second : r = 1001 <;> by_cases first : r = 1000 <;> simp [first, second]

end Corsair.Native
