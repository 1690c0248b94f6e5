import Corsair.Daemon.PlaceWhileKilled

namespace Corsair.Daemon

open BrokerApi Book Hedge MarketData Risk

def working (order : OpenOrder) : Prop := ¬order.status.isTerminal ∧ order.filledQty < order.qty

def Call.corrects : Call → Bool
  | .hedge _ .forceFlat | .hedge _ .flattenOnHalt => true
  | _ => false

def callsUntilCheck (d : DaemonState) (e : DaemonEvent) (later : List DaemonEvent) : List Call :=
  (daemonStep d e).2 ++ Machine.emitted daemonStep (daemonStep d e).1 later

def firedOn (d : DaemonState) (e : DaemonEvent) : Runtime := (checkedOn d e).getD d.runtime

def NoCheck (d : DaemonState) (e : DaemonEvent) : Prop := checkOutcome d e = none

-- The action that the kill type of `event` names, on the state `r` it was fired on,
-- and one that the kill type alone decides.
structure CarriedOut (r : Runtime) (book : BrokerBook) (event : KillEvent) (calls : List Call) : Prop where
  flat : event.killType = .hedgeFlat → ∀ m ∈ r.hedge.managers, m.targetQty r.portfolio ≠ m.hedgeQty →
    .hedge m.cfg.product .forceFlat ∈ calls
  halt : event.killType = .halt → ∀ m ∈ r.hedge.managers, m.cfg.flattenOnHaltEnabled → m.hedgeQty ≠ 0 →
    .hedge m.cfg.product .flattenOnHalt ∈ calls
  cancels : ∀ order ∈ book.orders, working order → .cancelResting order.orderId ∈ calls
  byType : ∀ other, other.killType = event.killType →
    onOutcome book.openOrders (.killed other) = onOutcome book.openOrders (.killed event)

theorem step_corrects (d : DaemonState) (e : DaemonEvent) : ∀ call ∈ (daemonStep d e).2, ¬call.corrects := by
  intro call member
  cases step_made d e call member <;> simp [Call.corrects]

theorem run_corrects (d : DaemonState) (events : List DaemonEvent) :
    ∀ call ∈ Machine.emitted daemonStep d events, ¬call.corrects :=
  Machine.emits (fun _ => True) (fun call : Call => ¬call.corrects) (fun _ _ _ _ => trivial)
    (fun s e _ _ => step_corrects s e) trivial (Machine.along_true d events)

theorem uncorrected (d : DaemonState) (e : DaemonEvent) (later : List DaemonEvent) :
    ∀ call ∈ callsUntilCheck d e later, ¬call.corrects := by
  intro call member
  rcases List.mem_append.mp member with first | after
  · exact step_corrects d e call first
  · exact run_corrects _ later call after

-- Resting orders are cancelled by the check that fires and by nothing after it.
theorem later_cancels {d : DaemonState} {later : List DaemonEvent}
    (unchecked : Machine.Along daemonStep NoCheck d later) (id : OrderId) :
    .cancelResting id ∉ Machine.emitted daemonStep d later := by
  intro member
  refine Machine.emits (fun _ => True) (fun call : Call => call ≠ .cancelResting id) (fun _ _ _ _ => trivial)
    ?_ trivial unchecked _ member rfl
  rintro s e quiet - call made rfl
  cases step_made s e _ made with
  | killed fires listed =>
    unfold NoCheck at quiet
    rw [fires] at quiet
    cases quiet

theorem fires_cancels {d : DaemonState} {e : DaemonEvent} {event : KillEvent}
    (fires : checkOutcome d e = some (.killed event)) {call : Call}
    (listed : call ∈ cancelAllResting e.book.openOrders) : call ∈ (daemonStep d e).2 := by
  cases e with
  | riskCheck dir now book =>
    have outcome : (riskCheck d.runtime dir now).2 = .killed event := Option.some.inj fires
    change call ∈ onOutcome book.openOrders (riskCheck d.runtime dir now).2
    rw [outcome]
    exact listed
  | fill fill now book =>
    obtain ⟨booked, books, outcome⟩ := Option.map_eq_some_iff.mp fires
    obtain ⟨product, result⟩ := handleFill_booked books now book.openOrders
    change call ∈ (handleFill d.runtime fill now book.openOrders).2
    have killed : (fillCheck booked now).2 = .killed event := outcome
    rw [result, killed]
    exact List.mem_append_left _ listed
  | _ => cases fires

theorem cancelled_iff {d : DaemonState} {e : DaemonEvent} {event : KillEvent}
    (fires : checkOutcome d e = some (.killed event)) {later : List DaemonEvent}
    (unchecked : Machine.Along daemonStep NoCheck (daemonStep d e).1 later) (id : OrderId) :
    .cancelResting id ∈ callsUntilCheck d e later ↔
      e.book.failure = none ∧ ∃ order ∈ e.book.orders, order.orderId = id ∧ 0 < order.remainingQty := by
  have listed : .cancelResting id ∈ callsUntilCheck d e later ↔
      .cancelResting id ∈ cancelAllResting e.book.openOrders := by
    constructor
    · intro member
      rcases List.mem_append.mp member with first | after
      · cases step_made d e _ first with
        | killed _ listed => exact listed
      · exact absurd after (later_cancels unchecked id)
    · exact fun listed => List.mem_append_left _ (fires_cancels fires listed)
  rw [listed]
  unfold BrokerBook.openOrders
  cases e.book.failure with
  | some error => simp [cancelAllResting]
  | none =>
    simp only [cancelAllResting, actionable, List.map_map, List.mem_map, List.mem_filter, Function.comp_apply,
      Call.cancelResting.injEq, decide_eq_true_eq, true_and]
    constructor
    · intro given
      obtain ⟨order, ⟨member, left⟩, same⟩ := given
      exact ⟨order, member, same, left⟩
    · intro given
      obtain ⟨order, member, same, left⟩ := given
      exact ⟨order, ⟨member, left⟩, same⟩

section DeltaKill

def deltaCall : Book.Position where
  product := "HG"
  strike := 6
  expiry := june
  right := .call
  quantity := 1
  avgFillPrice := 0
  multiplier := 25000
  delta := 9
  gamma := 0
  theta := 0
  vega := 0
  currentPrice := 0

def hedgeHG : HedgeManager := .new .hg

def nineDelta : DaemonState := .start {
  mode := .live
  config := ⟨true, some "DU1"⟩
  portfolio := (PortfolioState.new (ProductRegistry.register ∅ ⟨"HG", 25000, 3/10⟩)).replacePositions [deltaCall]
  risk := .new hgLimits
  hedge := ⟨[hedgeHG]⟩
  marketData := .new
  account := ⟨0, 0, 0, 0, 0, 0⟩ }

def deltaCheck : DaemonEvent := .riskCheck (fun _ => .absent) 1 quietBook

def deltaKill : KillEvent := ⟨.delta 9 5, .risk, .hedgeFlat, 1⟩

end DeltaKill

theorem delta_kill_not_carried_out :
    checkOutcome nineDelta deltaCheck = some (.killed deltaKill) ∧
      ¬CarriedOut (firedOn nineDelta deltaCheck) quietBook deltaKill (callsUntilCheck nineDelta deltaCheck []) := by
  refine ⟨by decide +kernel, ?_⟩
  intro carried
  have asked := carried.flat rfl hedgeHG (by decide +kernel) (by decide +kernel)
  revert asked
  decide +kernel

theorem kill_carried_out_iff {d : DaemonState} {e : DaemonEvent} {event : KillEvent} {later : List DaemonEvent}
    (fires : checkOutcome d e = some (.killed event))
    (unchecked : Machine.Along daemonStep NoCheck (daemonStep d e).1 later) :
    CarriedOut (firedOn d e) e.book event (callsUntilCheck d e later) ↔
      (event.killType = .hedgeFlat →
        ∀ m ∈ (firedOn d e).hedge.managers, m.targetQty (firedOn d e).portfolio = m.hedgeQty) ∧
      (event.killType = .halt →
        ∀ m ∈ (firedOn d e).hedge.managers, m.cfg.flattenOnHaltEnabled → m.hedgeQty = 0) ∧
      ∀ order ∈ e.book.orders, working order →
        e.book.failure = none ∧
          ∃ listed ∈ e.book.orders, listed.orderId = order.orderId ∧ 0 < listed.remainingQty := by
  have never := uncorrected d e later
  constructor
  · intro carried
    refine ⟨?_, ?_, ?_⟩
    · intro type m member
      by_contra off
      exact never _ (carried.flat type m member off) rfl
    · intro type m member enabled
      by_contra open_hedge
      exact never _ (carried.halt type m member enabled open_hedge) rfl
    · intro order member resting
      exact (cancelled_iff fires unchecked _).mp (carried.cancels order member resting)
  · intro given
    obtain ⟨flat, halt, cancels⟩ := given
    refine ⟨?_, ?_, ?_, fun _ _ => rfl⟩
    · intro type m member off
      exact absurd (flat type m member) off
    · intro type m member enabled open_hedge
      exact absurd (halt type m member enabled) open_hedge
    · intro order member resting
      exact (cancelled_iff fires unchecked _).mpr (cancels order member resting)

theorem delta_kill_carried_out_iff :
    CarriedOut (firedOn nineDelta deltaCheck) quietBook deltaKill (callsUntilCheck nineDelta deltaCheck []) ↔
      (deltaKill.killType = .hedgeFlat → ∀ m ∈ (firedOn nineDelta deltaCheck).hedge.managers,
        m.targetQty (firedOn nineDelta deltaCheck).portfolio = m.hedgeQty) ∧
      (deltaKill.killType = .halt → ∀ m ∈ (firedOn nineDelta deltaCheck).hedge.managers,
        m.cfg.flattenOnHaltEnabled → m.hedgeQty = 0) ∧
      ∀ order ∈ quietBook.orders, working order →
        quietBook.failure = none ∧
          ∃ listed ∈ quietBook.orders, listed.orderId = order.orderId ∧ 0 < listed.remainingQty :=
  kill_carried_out_iff (d := nineDelta) (e := deltaCheck) (by decide +kernel) trivial

end Corsair.Daemon
