import Corsair.Daemon.Tasks
import Corsair.Lib.Machine

namespace Corsair.Daemon

open BrokerApi Book Hedge MarketData Risk

structure BrokerBook where
  orders : List OpenOrder
  failure : Option BrokerError

def BrokerBook.openOrders (book : BrokerBook) : Except BrokerError (List OpenOrder) :=
  match book.failure with
  | some error => .error error
  | none => .ok book.orders

-- The runtime with what its tasks keep to themselves: the request the command
-- task has resolved and is waiting to send, the hedge task's tick count, and
-- the day the rollover task last fired.
structure DaemonState where
  runtime : Runtime
  inFlight : Option PlaceOrderReq
  hedgeTicks : ℕ
  lastFiredDay : Option NaiveDate

def DaemonState.start (runtime : Runtime) : DaemonState := ⟨runtime, none, 0, none⟩

-- One event is one stretch of a task between two points where it awaits. Placing
-- is two of them: handle_place gives up the processor at the broker lock.
inductive DaemonEvent where
  | riskCheck (dir : SentinelDir) (now : ℕ) (book : BrokerBook)
  | fill (fill : Fill) (now : ℕ) (book : BrokerBook)
  | connection (ev : ConnectionEvent)
  | rollover (hour : ℕ) (today : NaiveDate)
  | placeTaken (cmd : Option PlaceOrderCmd) (clock : PlaceClock)
  | placeSent
  | cancel (cmd : Option CancelOrderCmd)
  | tick (tick : Tick)
  | hedgeTick (positions : Except BrokerError (List BrokerApi.Position)) (nowNs : ℕ)
  | greekRefresh (pricing : Pricing)
  | accountPoll (answer : Except BrokerError AccountSnapshot)

-- The command task handles one command at a time, so nothing is taken from the
-- ring while a request waits.
def daemonStep (d : DaemonState) : DaemonEvent → DaemonState × List Call
  | .riskCheck dir now book =>
    let (runtime, calls) := periodicRiskCheck d.runtime dir now book.openOrders
    ({ d with runtime }, calls)
  | .fill fill now book =>
    let (runtime, calls) := handleFill d.runtime fill now book.openOrders
    ({ d with runtime }, calls)
  | .connection ev => ({ d with runtime := pumpConnection d.runtime ev }, [])
  | .rollover hour today =>
    let (runtime, lastFiredDay) := dailyHaltRollover d.runtime d.lastFiredDay hour today
    ({ d with runtime, lastFiredDay }, [])
  | .placeTaken cmd clock => match d.inFlight with
    | some _ => (d, [])
    | none => ({ d with inFlight := resolvePlace d.runtime clock cmd }, [])
  | .placeSent => ({ d with inFlight := none }, d.inFlight.toList.map fun req => .trader (.placeOrder req))
  | .cancel cmd => match d.inFlight with
    | some _ => (d, [])
    | none => (d, handleCancel d.runtime cmd)
  | .tick tick => ({ d with runtime := pumpTick d.runtime tick }, [])
  | .hedgeTick positions nowNs =>
    let ticks := d.hedgeTicks + 1
    let (runtime, calls) := periodicHedge d.runtime ticks positions nowNs
    ({ d with runtime, hedgeTicks := ticks }, calls)
  | .greekRefresh pricing => ({ d with runtime := greekRefresh pricing d.runtime }, [])
  | .accountPoll answer => ({ d with runtime := accountPoll d.runtime answer }, [])

def DaemonEvent.book : DaemonEvent → BrokerBook
  | .riskCheck _ _ book | .fill _ _ book => book
  | _ => ⟨[], none⟩

def bookedOn (r : Runtime) (fill : Fill) : Option Runtime :=
  if (offerFill r.hedge fill (managedProducts r.hedge)).2 then none
  else (matchedOption r fill.instrumentId).map fun found =>
    { r with portfolio := bookFill r.portfolio found.1 found.2 fill }

-- The state a risk check of the event looks at, and what it finds to fire there.
def checkedOn (d : DaemonState) : DaemonEvent → Option Runtime
  | .riskCheck _ _ _ => some d.runtime
  | .fill fill _ _ => bookedOn d.runtime fill
  | _ => none

def found (r : Runtime) : DaemonEvent → Option KillEvent
  | .riskCheck dir now _ =>
    RiskMonitor.checkKill r.risk.cfg dir r.portfolio (riskFigures r) r.marketData.view now
  | .fill _ now _ => dailyKill r.risk.cfg .dailyPnlFillPath r.portfolio r.marketData.view now
  | _ => none

def kills (d : DaemonState) (e : DaemonEvent) : Option KillEvent := (checkedOn d e).bind (found · e)

def checkOutcome (d : DaemonState) (e : DaemonEvent) : Option RiskCheckOutcome :=
  (checkedOn d e).map fun r => (r.risk.fireFirst (found r e)).2

section Calls

theorem cancelAllResting_cancels {opens : Except BrokerError (List OpenOrder)} {call : Call}
    (member : call ∈ cancelAllResting opens) : ∃ id, call = .cancelResting id := by
  cases opens with
  | error e => cases member
  | ok opens =>
    obtain ⟨id, -, rfl⟩ := List.mem_map.mp member
    exact ⟨id, rfl⟩

theorem onOutcome_cancels {opens : Except BrokerError (List OpenOrder)} {outcome : RiskCheckOutcome} {call : Call}
    (member : call ∈ onOutcome opens outcome) :
    ∃ event, outcome = .killed event ∧ call ∈ cancelAllResting opens := by
  cases outcome with
  | killed event => exact ⟨event, rfl, member⟩
  | alreadyKilled event => cases member
  | healthy => cases member

theorem executeHedge_orders (r : Runtime) (product : String) (action : HedgeAction) :
    ∀ call ∈ executeHedge r product action, ∃ req, call = .hedgeOrder req := by
  intro call member
  cases action with
  | place isBuy qty reason pre target =>
    simp only [executeHedge] at member
    split at member
    · unfold placeHedgeOrder at member
      split at member
      · cases member
      · split at member
        · cases member
        · dsimp only at member
          split at member
          · cases member
          · exact ⟨_, List.mem_singleton.mp member⟩
    · cases member
  | idle => cases member
  | logOnly isBuy qty reason forward => cases member

theorem hedgeOnFill_calls (r : Runtime) (product : String) :
    ∀ call ∈ (hedgeOnFill r product).2,
      call = .hedge product .rebalanceOnFill ∨ ∃ req, call = .hedgeOrder req := by
  intro call member
  unfold hedgeOnFill at member
  split at member
  · cases member
  · rcases List.mem_cons.mp member with first | later
    · exact .inl first
    · exact .inr (executeHedge_orders _ _ _ call later)

theorem hedgeOnFill_risk (r : Runtime) (product : String) : (hedgeOnFill r product).1.risk = r.risk := by
  unfold hedgeOnFill
  split <;> rfl

theorem periodicHedge_calls (r : Runtime) (ticks : ℕ) (positions : Except BrokerError (List BrokerApi.Position))
    (nowNs : ℕ) : ∀ call ∈ (periodicHedge r ticks positions nowNs).2,
      (∃ product, call = .hedge product .rebalancePeriodic) ∨ ∃ req, call = .hedgeOrder req := by
  intro call member
  obtain ⟨⟨product, action⟩, -, made⟩ := List.mem_flatMap.mp member
  rcases List.mem_cons.mp made with first | later
  · exact .inl ⟨product, first⟩
  · exact .inr (executeHedge_orders _ _ _ call later)

theorem handleFill_booked {r booked : Runtime} {fill : Fill} (books : bookedOn r fill = some booked) (now : ℕ)
    (opens : Except BrokerError (List OpenOrder)) :
    ∃ product,
      handleFill r fill now opens =
        ((hedgeOnFill { booked with risk := (fillCheck booked now).1 } product).1,
          onOutcome opens (fillCheck booked now).2 ++
            (hedgeOnFill { booked with risk := (fillCheck booked now).1 } product).2) := by
  unfold bookedOn at books
  split at books
  · cases books
  · rename_i refused
    obtain ⟨⟨product, t⟩, matched, rfl⟩ := Option.map_eq_some_iff.mp books
    refine ⟨product, ?_⟩
    unfold handleFill
    rw [matched]
    simp only [refused]
    rfl

theorem handleFill_unbooked {r : Runtime} {fill : Fill} (books : bookedOn r fill = none) (now : ℕ)
    (opens : Except BrokerError (List OpenOrder)) :
    (handleFill r fill now opens).1.risk = r.risk ∧ (handleFill r fill now opens).2 = [] := by
  unfold bookedOn at books
  unfold handleFill
  split at books
  · rename_i taken
    simp only [taken]
    exact ⟨rfl, rfl⟩
  · rename_i refused
    rw [Option.map_eq_none_iff.mp books]
    simp only [refused]
    exact ⟨rfl, rfl⟩

end Calls

theorem checked_risk {d : DaemonState} {e : DaemonEvent} {r : Runtime} (checks : checkedOn d e = some r) :
    (daemonStep d e).1.runtime.risk = (r.risk.fireFirst (found r e)).1 ∧ r.risk = d.runtime.risk := by
  cases e with
  | riskCheck dir now book =>
    cases checks
    exact ⟨rfl, rfl⟩
  | fill fill now book =>
    change bookedOn d.runtime fill = some r at checks
    obtain ⟨product, result⟩ := handleFill_booked checks now book.openOrders
    constructor
    · simp only [daemonStep, result, hedgeOnFill_risk]
      rfl
    · unfold bookedOn at checks
      split at checks
      · cases checks
      · obtain ⟨option, -, rfl⟩ := Option.map_eq_some_iff.mp checks
        rfl
  | _ => cases checks

inductive Made (d : DaemonState) (e : DaemonEvent) : Call → Prop where
  | placed {req : PlaceOrderReq} (sent : e = .placeSent) (waiting : d.inFlight = some req) :
      Made d e (.trader (.placeOrder req))
  | cancelled (id : OrderId) : Made d e (.trader (.cancelOrder id))
  | killed {event : KillEvent} {id : OrderId} (fires : checkOutcome d e = some (.killed event))
      (listed : .cancelResting id ∈ cancelAllResting e.book.openOrders) : Made d e (.cancelResting id)
  | onFill (product : String) : Made d e (.hedge product .rebalanceOnFill)
  | periodic (product : String) : Made d e (.hedge product .rebalancePeriodic)
  | ordered (req : PlaceOrderReq) : Made d e (.hedgeOrder req)

theorem outcome_made {d : DaemonState} {e : DaemonEvent} {outcome : RiskCheckOutcome}
    (checks : checkOutcome d e = some outcome) {call : Call} (member : call ∈ onOutcome e.book.openOrders outcome) :
    Made d e call := by
  obtain ⟨event, rfl, listed⟩ := onOutcome_cancels member
  obtain ⟨id, rfl⟩ := cancelAllResting_cancels listed
  exact .killed checks listed

theorem step_made (d : DaemonState) (e : DaemonEvent) : ∀ call ∈ (daemonStep d e).2, Made d e call := by
  intro call member
  cases e with
  | riskCheck dir now book => exact outcome_made (e := .riskCheck dir now book) rfl member
  | fill fill now book =>
    change call ∈ (handleFill d.runtime fill now book.openOrders).2 at member
    cases books : bookedOn d.runtime fill with
    | none =>
      rw [(handleFill_unbooked books now book.openOrders).2] at member
      cases member
    | some booked =>
      obtain ⟨product, result⟩ := handleFill_booked books now book.openOrders
      rw [result] at member
      rcases List.mem_append.mp member with kill | hedge
      · refine outcome_made (e := .fill fill now book) ?_ kill
        simp only [checkOutcome, checkedOn, books, Option.map_some]
        rfl
      · rcases hedgeOnFill_calls _ _ call hedge with rfl | ⟨req, rfl⟩
        · exact .onFill product
        · exact .ordered req
  | placeSent =>
    obtain ⟨req, waiting, rfl⟩ := List.mem_map.mp member
    exact .placed rfl (Option.mem_toList.mp waiting)
  | hedgeTick positions nowNs =>
    rcases periodicHedge_calls _ _ _ _ call member with ⟨product, rfl⟩ | ⟨req, rfl⟩
    · exact .periodic product
    · exact .ordered req
  | placeTaken cmd clock =>
    simp only [daemonStep] at member
    split at member <;> cases member
  | cancel cmd =>
    simp only [daemonStep] at member
    split at member
    · cases member
    · unfold handleCancel at member
      split at member
      · split at member
        · cases member
        · rw [List.mem_singleton] at member
          exact member ▸ .cancelled _
      · cases member
  | _ => cases member

theorem rollover_risk (r : Runtime) (last : Option NaiveDate) (hour : ℕ) (today : NaiveDate) :
    (dailyHaltRollover r last hour today).1.risk = r.risk ∨
      (dailyHaltRollover r last hour today).1.risk = r.risk.clearDailyHalt.1 := by
  unfold dailyHaltRollover
  split
  · exact .inr rfl
  · exact .inl rfl

theorem connection_risk (r : Runtime) (ev : ConnectionEvent) :
    (pumpConnection r ev).risk = r.risk ∨ (pumpConnection r ev).risk = r.risk.clearDisconnectKill.1 := by
  unfold pumpConnection
  split
  · exact .inr rfl
  · exact .inl rfl

theorem pumpTick_risk (r : Runtime) (tick : Tick) : (pumpTick r tick).risk = r.risk := by
  unfold pumpTick
  split
  · rfl
  · split <;> rfl

theorem clearIf_killed_before {m : RiskMonitor} {clearable : KillSource → Bool}
    (killed : (m.clearIf clearable).1.isKilled) : m.isKilled := by
  unfold RiskMonitor.clearIf at killed
  split at killed
  · rename_i event active
    simp [RiskMonitor.isKilled, active]
  · exact killed

theorem unchecked_risk {d : DaemonState} {e : DaemonEvent} (unchecked : checkedOn d e = none)
    (killed : (daemonStep d e).1.runtime.risk.isKilled) : d.runtime.risk.isKilled := by
  cases e with
  | riskCheck dir now book => cases unchecked
  | fill fill now book =>
    have same := (handleFill_unbooked unchecked now book.openOrders).1
    simp only [daemonStep, same] at killed
    exact killed
  | connection ev =>
    rcases connection_risk d.runtime ev with same | cleared
    · simpa only [daemonStep, same] using killed
    · simp only [daemonStep, cleared] at killed
      exact clearIf_killed_before killed
  | rollover hour today =>
    rcases rollover_risk d.runtime d.lastFiredDay hour today with same | cleared
    · simpa only [daemonStep, same] using killed
    · simp only [daemonStep, cleared] at killed
      exact clearIf_killed_before killed
  | placeTaken cmd clock =>
    simp only [daemonStep] at killed
    split at killed <;> exact killed
  | placeSent => exact killed
  | cancel cmd =>
    simp only [daemonStep] at killed
    split at killed <;> exact killed
  | tick tick => simpa only [daemonStep, pumpTick_risk] using killed
  | hedgeTick positions nowNs => exact killed
  | greekRefresh pricing => exact killed
  | accountPoll answer =>
    cases answer <;> exact killed

end Corsair.Daemon
