import Corsair.Daemon.Ipc
import Corsair.Lib.Register
import Corsair.Trader.Main

namespace Corsair.Daemon

open BrokerApi MarketData Trader Wire

-- The broker with the last status it handled of each order, the trader, and the
-- broker's id of each order it accepted of those the trader tracks.
structure Mirror where
  runtime : Runtime
  ticks : HashMap InstrumentId ConsolidatedTick
  statuses : HashMap OrderId OrderStatus
  accepted : HashMap OrderKey OrderId
  trader : TraderState

inductive MirrorInput where
  | status (u : OrderStatusUpdate)
  | tick (tick : Tick)

def heard (quoting : Quoting) (turn : Trader.Turn) (trader : TraderState) (bodies : List (Body F64)) :
    TraderState × List Command :=
  let inputs := bodies.map fun body => (turn, TraderInput.event body)
  (Machine.after (traderStep quoting) trader inputs, Machine.emitted (traderStep quoting) trader inputs)

-- The daemon handles an update or a tick, and the trader what it publishes for it.
def mirrorStep (quoting : Quoting) (ymd : NaiveDate → String) (m : Mirror) (input : Trader.Turn × MirrorInput) :
    Mirror × List Command :=
  match input.2 with
  | .status u =>
    let (trader, commands) := heard quoting input.1 m.trader [orderStatusEvent u]
    ({ m with statuses := m.statuses.set u.orderId u.status, trader }, commands)
  | .tick tick =>
    let (ticks, bodies) := publishTick ymd m.runtime.marketData m.ticks tick
    let (trader, commands) := heard quoting input.1 m.trader bodies
    ({ m with runtime := pumpTick m.runtime tick, ticks, trader }, commands)

structure Mirrors (product : String) (m : Mirror) : Prop where
  live : ∀ key order id status, m.trader.ourOrders.get key = some order → m.accepted.get key = some id →
    m.statuses.get id = some status → ¬status.isTerminal
  known : ∀ key order id, m.trader.ourOrders.get key = some order → m.accepted.get key = some id →
    order.orderId = some id
  priced : ∀ price, m.runtime.marketData.underlyingPrice product = some price → m.trader.underlyingPrice = price

-- What the inputs say of an order and of an underlying.
def statusUpdates (inputs : List (Trader.Turn × MirrorInput)) : List OrderStatusUpdate :=
  inputs.filterMap fun input => match input.2 with
    | .status u => some u
    | .tick _ => none

def lastStatus (m : Mirror) (inputs : List (Trader.Turn × MirrorInput)) (id : OrderId) : Option OrderStatus :=
  (Register.last OrderStatusUpdate.orderId OrderStatusUpdate.status (statusUpdates inputs) id).or (m.statuses.get id)

def pricedTick (md : MarketDataState) (tick : Tick) : Option (String × ℚ) :=
  match tick.price, tick.kind with
  | some price, .bid | some price, .last =>
    if 0 < price.exact then (md.underlyingInstruments.get tick.instrumentId).map (·, price.exact) else none
  | _, _ => none

def pricedTicks (md : MarketDataState) (inputs : List (Trader.Turn × MirrorInput)) : List (String × ℚ) :=
  inputs.filterMap fun input => match input.2 with
    | .status _ => none
    | .tick tick => pricedTick md tick

def lastPrice (m : Mirror) (inputs : List (Trader.Turn × MirrorInput)) (product : String) : Option ℚ :=
  ((Register.last Prod.fst Prod.snd (pricedTicks m.runtime.marketData inputs) product).or
    (m.runtime.marketData.underlying.get product)).filter (0 < ·)

-- Nothing is left for the trader to hear: the ids are known to it, no accepted order
-- ends, and the last price is the one it has.
structure Foreseen (product : String) (m : Mirror) (inputs : List (Trader.Turn × MirrorInput)) : Prop where
  live : ∀ key order id status, m.trader.ourOrders.get key = some order → m.accepted.get key = some id →
    lastStatus m inputs id = some status → ¬status.isTerminal
  known : ∀ key order id, m.trader.ourOrders.get key = some order → m.accepted.get key = some id →
    order.orderId = some id
  priced : ∀ price, lastPrice m inputs product = some price → m.trader.underlyingPrice = price

def OfUnderlying (md : MarketDataState) : MirrorInput → Prop
  | .status _ => True
  | .tick tick => md.byInstrument.get tick.instrumentId = none

section Steps

variable (quoting : Quoting) (ymd : NaiveDate → String) (turn : Trader.Turn)

-- The trader waits for order_ack and place_ack, which nobody writes.
theorem status_unheard (s : TraderState) (u : OrderStatusUpdate) :
    heard quoting turn s [orderStatusEvent u] = (s, []) := by
  have generic : decodeGeneric (orderStatusEvent u) = .ok ⟨"order_status", none⟩ := rfl
  have passed : traderStep quoting s (turn, .event (orderStatusEvent u)) = (s, []) := by
    simp only [traderStep, processEvent, generic]
    rfl
  simp [heard, Machine.after, Machine.emitted, passed]

-- The publisher looks a tick up among the options, and writes no underlying_tick.
theorem underlying_unpublished {md : MarketDataState} {tick : Tick} (own : OfUnderlying md (.tick tick))
    (ticks : HashMap InstrumentId ConsolidatedTick) : publishTick ymd md ticks tick = (ticks, []) := by
  have unlisted : optionMeta md tick.instrumentId = none := by
    unfold optionMeta
    rw [own]
    rfl
  unfold publishTick
  split
  · rfl
  · rfl
  · rw [unlisted]

theorem pumpTick_underlying {r : Runtime} {tick : Tick} (own : OfUnderlying r.marketData (.tick tick)) :
    (pumpTick r tick).marketData = match pricedTick r.marketData tick with
      | some (product, price) => { r.marketData with underlying := r.marketData.underlying.set product price }
      | none => r.marketData := by
  have moved : ∀ price : F64, r.marketData.updateUnderlying tick.instrumentId price.exact =
      match (if 0 < price.exact then (r.marketData.underlyingInstruments.get tick.instrumentId).map (·, price.exact)
        else none) with
      | some (product, price) => { r.marketData with underlying := r.marketData.underlying.set product price }
      | none => r.marketData := by
    intro price
    unfold MarketDataState.updateUnderlying MarketDataState.setUnderlying
    cases found : r.marketData.underlyingInstruments.get tick.instrumentId with
    | none => split <;> simp_all
    | some product => by_cases positive : 0 < price.exact <;> simp [positive]
  unfold OfUnderlying at own
  unfold pumpTick pricedTick
  cases priced : tick.price with
  | none => rfl
  | some price =>
    cases tick.kind with
    | bid => simp only [MarketDataState.updateBid, own, moved]
    | last => simp only [MarketDataState.updateLast, own, moved]
    | ask => simp only [MarketDataState.updateAsk, own]
    | _ => rfl

theorem pumpTick_registrations {r : Runtime} {tick : Tick} (own : OfUnderlying r.marketData (.tick tick)) :
    (pumpTick r tick).marketData.byInstrument = r.marketData.byInstrument ∧
      (pumpTick r tick).marketData.underlyingInstruments = r.marketData.underlyingInstruments := by
  rw [pumpTick_underlying own]
  split <;> exact ⟨rfl, rfl⟩

theorem pumpTick_price {r : Runtime} {tick : Tick} (own : OfUnderlying r.marketData (.tick tick)) (product : String) :
    (pumpTick r tick).marketData.underlying.get product =
      (Register.last Prod.fst Prod.snd (pricedTick r.marketData tick).toList product).or
        (r.marketData.underlying.get product) := by
  rw [pumpTick_underlying own]
  cases pricedTick r.marketData tick with
  | none => rfl
  | some entry =>
    have last := Register.last_snoc Prod.fst Prod.snd [] entry product
    rw [List.nil_append] at last
    rw [Option.toList_some, last, HashMap.get_set]
    by_cases same : product = entry.1
    · simp [same]
    · simp [same, Ne.symm same, Register.last]

-- What a run leaves of the first state.
structure Unheard (m : Mirror) (past : List (Trader.Turn × MirrorInput)) (now : Mirror) : Prop where
  trader : now.trader = m.trader
  accepted : now.accepted = m.accepted
  options : now.runtime.marketData.byInstrument = m.runtime.marketData.byInstrument
  instruments : now.runtime.marketData.underlyingInstruments = m.runtime.marketData.underlyingInstruments
  status : ∀ id, now.statuses.get id = lastStatus m past id
  price : ∀ product, now.runtime.marketData.underlying.get product =
    (Register.last Prod.fst Prod.snd (pricedTicks m.runtime.marketData past) product).or
      (m.runtime.marketData.underlying.get product)

theorem unheard_start (m : Mirror) : Unheard m [] m :=
  ⟨rfl, rfl, rfl, rfl, fun _ => rfl, fun _ => rfl⟩

theorem unheard_step {m now : Mirror} {past : List (Trader.Turn × MirrorInput)} (held : Unheard m past now)
    (input : Trader.Turn × MirrorInput) (own : OfUnderlying m.runtime.marketData input.2) :
    Unheard m (past ++ [input]) (mirrorStep quoting ymd now input).1 := by
  obtain ⟨turn, input⟩ := input
  cases input with
  | status u =>
    have stepped : (mirrorStep quoting ymd now (turn, .status u)).1 =
        { now with statuses := now.statuses.set u.orderId u.status } := by
      simp only [mirrorStep, status_unheard]
    have updates : statusUpdates (past ++ [(turn, .status u)]) = statusUpdates past ++ [u] := by
      simp [statusUpdates]
    have ticks : pricedTicks m.runtime.marketData (past ++ [(turn, .status u)]) =
        pricedTicks m.runtime.marketData past := by
      simp [pricedTicks]
    rw [stepped]
    refine ⟨held.trader, held.accepted, held.options, held.instruments, ?_, ?_⟩
    · intro id
      unfold lastStatus
      rw [updates, Register.last_snoc, HashMap.get_set, held.status]
      by_cases same : id = u.orderId
      · simp [same]
      · simp [same, Ne.symm same, lastStatus]
    · rw [ticks]
      exact held.price
  | tick tick =>
    have listed : OfUnderlying now.runtime.marketData (.tick tick) := by
      unfold OfUnderlying
      rw [held.options]
      exact own
    have stepped : (mirrorStep quoting ymd now (turn, .tick tick)).1 =
        { now with runtime := pumpTick now.runtime tick } := by
      simp only [mirrorStep, underlying_unpublished ymd listed]
      rfl
    have updates : statusUpdates (past ++ [(turn, .tick tick)]) = statusUpdates past := by
      simp [statusUpdates]
    have ticks : pricedTicks m.runtime.marketData (past ++ [(turn, .tick tick)]) =
        pricedTicks m.runtime.marketData past ++ (pricedTick now.runtime.marketData tick).toList := by
      unfold pricedTicks pricedTick
      rw [held.instruments, List.filterMap_append]
      simp only [List.filterMap_cons, List.filterMap_nil]
      split <;> simp_all
    obtain ⟨options, instruments⟩ := pumpTick_registrations listed
    rw [stepped]
    refine ⟨held.trader, held.accepted, options.trans held.options, instruments.trans held.instruments, ?_, ?_⟩
    · unfold lastStatus
      rw [updates]
      exact held.status
    · intro product
      rw [ticks, Register.last_append, Option.or_assoc, ← held.price]
      exact pumpTick_price listed product

theorem unheard_run (m : Mirror) (inputs : List (Trader.Turn × MirrorInput))
    (own : ∀ input ∈ inputs, OfUnderlying m.runtime.marketData input.2) :
    Unheard m inputs (Machine.after (mirrorStep quoting ymd) m inputs) := by
  induction inputs using List.reverseRecOn with
  | nil => exact unheard_start m
  | append_singleton past input held =>
    rw [Machine.after_append]
    refine unheard_step quoting ymd (held fun input member => own input ?_) input (own input ?_)
    · exact List.mem_append_left _ member
    · exact List.mem_append_right _ (List.mem_singleton_self _)

theorem unheard_mirrors {m now : Mirror} {past : List (Trader.Turn × MirrorInput)} (held : Unheard m past now)
    (product : String) : Mirrors product now ↔ Foreseen product m past := by
  have price : now.runtime.marketData.underlyingPrice product = lastPrice m past product := by
    unfold MarketDataState.underlyingPrice lastPrice
    rw [held.price]
  constructor
  · intro mirrors
    refine ⟨?_, ?_, ?_⟩
    · intro key order id status tracked taken last
      exact mirrors.live key order id status (held.trader ▸ tracked) (held.accepted ▸ taken) (held.status id ▸ last)
    · intro key order id tracked taken
      exact mirrors.known key order id (held.trader ▸ tracked) (held.accepted ▸ taken)
    · intro latest last
      rw [← price] at last
      rw [← held.trader]
      exact mirrors.priced latest last
  · intro foreseen
    refine ⟨?_, ?_, ?_⟩
    · intro key order id status tracked taken last
      rw [held.trader] at tracked
      rw [held.accepted] at taken
      rw [held.status] at last
      exact foreseen.live key order id status tracked taken last
    · intro key order id tracked taken
      rw [held.trader] at tracked
      rw [held.accepted] at taken
      exact foreseen.known key order id tracked taken
    · intro latest last
      rw [price] at last
      rw [held.trader]
      exact foreseen.priced latest last

end Steps

section Quiet

def callBid : OrderKey := ⟨6, "20260626", 'C', 'B'⟩

-- One quote works, the trader knows its id, and both sides have the underlying at 6.
def quiet : Mirror where
  runtime :=
    { mode := .live
      config := ⟨true, some "DU1"⟩
      portfolio := .new (Book.ProductRegistry.register ∅ ⟨"HG", 25000, 3/10⟩)
      risk := .new Risk.hgLimits
      hedge := ⟨[]⟩
      marketData := (MarketDataState.new.registerUnderlying "HG" 500).setUnderlying "HG" 6
      account := ⟨0, 0, 0, 0, 0, 0⟩ }
  ticks := ∅
  statuses := (∅ : HashMap _ _).set 7 .submitted
  accepted := (∅ : HashMap _ _).set callBid 7
  trader :=
    { TraderState.new with
      underlyingPrice := 6
      ourOrders := (∅ : HashMap _ _).set callBid ⟨1/10, 1, some 7⟩
      orderidToKey := (∅ : HashMap _ _).set 7 callBid }

def unpriced : Quoting where
  sviImpliedVol _ _ _ _ _ _ _ _ := none
  sabrImpliedVol _ _ _ _ _ _ _ := none
  black76Price _ _ _ _ _ _ := 0
  timeToExpiryYears _ := none

def atOneSecond : Trader.Turn := ⟨1000000000, 1000000000, true⟩

def statusOf (status : OrderStatus) : Trader.Turn × MirrorInput :=
  (atOneSecond, .status ⟨7, status, 0, 1, .finite 0, none, 1, none⟩)

def tradedAt (price : ℚ) : Trader.Turn × MirrorInput :=
  (atOneSecond, .tick ⟨500, .last, some (.finite price), none, 1⟩)

theorem quiet_tracks {key : OrderKey} {order : OurOrder} (tracked : quiet.trader.ourOrders.get key = some order) :
    key = callBid ∧ order = ⟨1/10, 1, some 7⟩ := by
  have looked : quiet.trader.ourOrders.get key = if key = callBid then some ⟨1/10, 1, some 7⟩ else none :=
    HashMap.get_set ∅ callBid key _
  rw [looked] at tracked
  split at tracked
  · exact ⟨‹_›, (Option.some.inj tracked).symm⟩
  · cases tracked

theorem quiet_accepts {id : OrderId} (taken : quiet.accepted.get callBid = some id) : id = 7 := by
  have looked : quiet.accepted.get callBid = some 7 := by
    exact (HashMap.get_set ∅ callBid callBid 7).trans (if_pos rfl)
  exact Option.some.inj (taken.symm.trans looked)

theorem quiet_underlyings (input : Trader.Turn × MirrorInput) : OfUnderlying quiet.runtime.marketData input.2 := by
  cases input.2 with
  | status u => trivial
  | tick tick => exact HashMap.get_empty tick.instrumentId

theorem quiet_foreseen {inputs : List (Trader.Turn × MirrorInput)} {status : OrderStatus}
    (last : lastStatus quiet inputs 7 = some status) (working : ¬status.isTerminal)
    (price : lastPrice quiet inputs "HG" = some 6) : Foreseen "HG" quiet inputs := by
  refine ⟨?_, ?_, ?_⟩
  · intro key order id other tracked taken found
    obtain ⟨rfl, -⟩ := quiet_tracks tracked
    obtain rfl := quiet_accepts taken
    rw [last] at found
    exact Option.some.inj found ▸ working
  · intro key order id tracked taken
    obtain ⟨rfl, rfl⟩ := quiet_tracks tracked
    rw [quiet_accepts taken]
    rfl
  · intro latest found
    rw [price] at found
    exact Option.some.inj found

end Quiet

theorem mirrors_iff (quoting : Quoting) (ymd : NaiveDate → String) (product : String) (m : Mirror)
    (inputs : List (Trader.Turn × MirrorInput)) (own : ∀ input ∈ inputs, OfUnderlying m.runtime.marketData input.2) :
    Mirrors product (Machine.after (mirrorStep quoting ymd) m inputs) ↔ Foreseen product m inputs :=
  unheard_mirrors (unheard_run quoting ymd m inputs own) product

-- A second acknowledgement and a trade at the same price change nothing.
theorem mirrors_idle :
    Mirrors "HG" (Machine.after (mirrorStep unpriced fun _ => "20260626") quiet [statusOf .submitted, tradedAt 6]) := by
  refine (mirrors_iff unpriced _ "HG" quiet _ fun input _ => quiet_underlyings input).mpr ?_
  have last : lastStatus quiet [statusOf .submitted, tradedAt 6] 7 = some .submitted := by decide +kernel
  have price : lastPrice quiet [statusOf .submitted, tradedAt 6] "HG" = some 6 := by decide +kernel
  exact quiet_foreseen last (by decide) price

-- A fill leaves the order tracked, and a trade at another price the old price.
theorem mirror_stale :
    ¬Mirrors "HG" (Machine.after (mirrorStep unpriced fun _ => "20260626") quiet [statusOf .filled]) ∧
      ¬Mirrors "HG" (Machine.after (mirrorStep unpriced fun _ => "20260626") quiet [tradedAt (121/20)]) := by
  have run := fun inputs => unheard_run unpriced (fun _ => "20260626") quiet inputs fun input _ => quiet_underlyings input
  rw [unheard_mirrors (run _), unheard_mirrors (run _)]
  constructor
  · intro foreseen
    have tracked : quiet.trader.ourOrders.get callBid = some ⟨1/10, 1, some 7⟩ := by decide +kernel
    have last : lastStatus quiet [statusOf .filled] 7 = some .filled := by decide +kernel
    exact foreseen.live callBid _ 7 .filled tracked (by decide +kernel) last rfl
  · intro foreseen
    have last : lastPrice quiet [tradedAt (121/20)] "HG" = some (121/20) := by decide +kernel
    have same := foreseen.priced _ last
    exact absurd same (by decide +kernel)

end Corsair.Daemon
