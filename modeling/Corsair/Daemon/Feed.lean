import Corsair.Daemon.MarginGate
import Corsair.Daemon.Mirror
import Corsair.Daemon.Surfaces
import Corsair.Daemon.TickPaths

namespace Corsair.Daemon

open BrokerApi MarketData Trader Wire

-- ipc.rs, the other frames of the events ring.
def fillEvent (f : Fill) : Body F64 :=
  [("type", .str "fill"), ("exec_id", .str f.execId), ("order_id", .int f.orderId),
    ("instrument_id", .int f.instrumentId), ("side", .str (match f.side with | .buy => "BUY" | .sell => "SELL")),
    ("qty", .int f.qty), ("price", .float f.price), ("timestamp_ns", .int f.timestampNs),
    ("commission", optionValue .float f.commission)]

def stateName : ConnectionState → String
  | .disconnected => "Disconnected"
  | .connecting => "Connecting"
  | .connected => "Connected"
  | .lostConnection => "LostConnection"
  | .reconnecting => "Reconnecting"
  | .closed => "Closed"

def connectionEvent (ev : ConnectionEvent) : Body F64 :=
  [("type", .str "connection"), ("state", .str (stateName ev.state)), ("reason", optionValue .str ev.reason),
    ("timestamp_ns", .int ev.timestampNs)]

-- vol_surface.rs
structure VolSurfaceFailedEvent where
  expiry : String
  reason : String
  nStrikes : ℕ
  tsNs : ℕ

def VolSurfaceFailedEvent.encode (ev : VolSurfaceFailedEvent) : Body F64 :=
  [("type", .str "vol_surface_failed"), ("expiry", .str ev.expiry), ("reason", .str ev.reason),
    ("n_strikes", .int ev.nStrikes), ("ts_ns", .int ev.tsNs)]

-- The daemon with the cache of its tick publisher, and the trader at the other end of the events ring.
structure Feed where
  daemon : DaemonState
  cache : TickCache
  trader : TraderState

def Feed.start (daemon : DaemonState) : Feed := ⟨daemon, ∅, .new⟩

-- A task of the daemon other than the publishers, one of the publishers, or the trader's own loop.
inductive FeedInput where
  | daemon (e : DaemonEvent)
  | register (product : String) (strike : ℚ) (expiry : NaiveDate) (right : Right) (id : InstrumentId)
  | tick (tick : Tick) (stamped : tick.timestampNs < 2^64)
  | status (u : OrderStatusUpdate)
  | fill (f : Fill)
  | connection (ev : ConnectionEvent)
  | riskState (tsNs : ℕ) (usd : F64)
  | surface (ev : VolSurfaceEvent)
  | surfaceFailed (ev : VolSurfaceFailedEvent)
  | stalenessLoop

-- What a frame tells the trader.
inductive News where
  | quote (entry : ConsolidatedTick)
  | surface (ev : VolSurfaceEvent)
  | risk (r : RiskStateMsg)

inductive FeedOutcome where
  | command (c : Command)
  | heard (news : News)

structure FeedTurn where
  turn : Trader.Turn
  ringFull : Bool
  input : FeedInput

section Step

variable (quoting : Quoting) (ymd : NaiveDate → String) (capital : ℚ) (s : Feed)

def advanced : FeedInput → Feed
  | .daemon e => { s with daemon := (daemonStep s.daemon e).1 }
  | .register product strike expiry right id =>
    { s with daemon.runtime.marketData :=
        s.daemon.runtime.marketData.registerOption product strike expiry right id }
  | .tick tick _ => { s with cache := (publishTick ymd s.daemon.runtime.marketData s.cache tick).1 }
  | _ => s

def bodies : FeedInput → List (Body F64)
  | .tick tick _ => (publishTick ymd s.daemon.runtime.marketData s.cache tick).2
  | .status u => [orderStatusEvent u]
  | .fill f => [fillEvent f]
  | .connection ev => [connectionEvent ev]
  | .riskState tsNs usd => [riskStateEvent capital tsNs s.daemon.runtime usd]
  | .surface ev => [ev.encode]
  | .surfaceFailed ev => [ev.encode]
  | .daemon _ | .register .. | .stalenessLoop => []

-- What the trader is to make of them.
def newsOf : FeedInput → List News
  | .tick tick _ =>
    let published := publishTick ymd s.daemon.runtime.marketData s.cache tick
    if published.2 = [] then [] else ((published.1.get tick.instrumentId).map News.quote).toList
  | .riskState tsNs usd => ((riskStateOf (riskStateEvent capital tsNs s.daemon.runtime usd)).map News.risk).toList
  | .surface ev => [.surface ev]
  | _ => []

-- A full ring drops the frame.
def reaction (t : FeedTurn) : TraderState × List Command :=
  match t.input with
  | .stalenessLoop => stalenessCheck quoting t.turn s.trader
  | input => heard quoting t.turn s.trader (if t.ringFull then [] else bodies ymd capital s input)

def feedStep (t : FeedTurn) : Feed × List FeedOutcome :=
  let told := if t.ringFull then [] else newsOf ymd capital s t.input
  let (trader, commands) := reaction quoting ymd capital s t
  ({ advanced ymd s t.input with trader }, told.map .heard ++ commands.map .command)

end Step

def optionTicks (outcomes : List FeedOutcome) : List ConsolidatedTick :=
  outcomes.filterMap fun out => match out with
    | .heard (.quote entry) => some entry
    | _ => none

def fitted (outcomes : List FeedOutcome) : List VolSurfaceEvent :=
  outcomes.filterMap fun out => match out with
    | .heard (.surface ev) => some ev
    | _ => none

def risks (outcomes : List FeedOutcome) : List RiskStateMsg :=
  outcomes.filterMap fun out => match out with
    | .heard (.risk r) => some r
    | _ => none

-- A price that JSON has no number for is no price.
def finitePart : Option F64 → Option ℚ
  | some (.finite x) => some x
  | _ => none

def quoteKey (entry : ConsolidatedTick) : Trader.OptionKey := ⟨entry.strike, entry.expiry, sideChar entry.right⟩

def quoteState (entry : ConsolidatedTick) : OptionState :=
  ⟨finitePart entry.bid, finitePart entry.ask, entry.bidSize, entry.askSize⟩

-- The parts of the trader that no frame of the daemon touches.
def unfed (t : TraderState) : TraderState :=
  { t with
    options := ∅
    volSurfaces := ∅
    riskEffectiveDelta := none
    riskMarginPct := none
    riskStateAgeMonotonicNs := 0 }

-- The trader is three tables of the latest news, and nothing else; it has sent nothing.
structure Knows (outcomes : List FeedOutcome) (t : TraderState) : Prop where
  silent : ∀ c, .command c ∉ outcomes
  options : ∀ k, t.options.get k = Register.last quoteKey quoteState (optionTicks outcomes) k
  surfaces : ∀ k, t.volSurfaces.get k =
    Register.last VolSurfaceEvent.key VolSurfaceEvent.entry (fitted outcomes) k
  risk : (t.riskEffectiveDelta, t.riskMarginPct) =
    (((risks outcomes).getLast?).map (·.effectiveDelta), ((risks outcomes).getLast?).map (·.marginPct))
  rest : unfed t = .new

section Hearing

variable (quoting : Quoting) (turn : Trader.Turn) {t : TraderState}

theorem heard_one (t : TraderState) (body : Body F64) :
    heard quoting turn t [body] = processEvent quoting turn t body := by
  simp [heard, Machine.after, Machine.emitted, traderStep]

theorem unfed_fields (quiet : unfed t = .new) : t.underlyingPrice = 0 ∧ t.ourOrders = ∅ :=
  ⟨congrArg TraderState.underlyingPrice quiet, congrArg TraderState.ourOrders quiet⟩

-- Without a price of the underlying there is nothing to quote around.
theorem decide_unpriced (unpriced : t.underlyingPrice = 0) (tick : TickMsg) (now : ℕ) :
    decideOnTick quoting t tick now = [] := by
  unfold decideOnTick
  rw [if_pos]
  simp [quotable, unpriced]

theorem onTick_unpriced (unpriced : t.underlyingPrice = 0) (tick : TickMsg) :
    onTick quoting turn t tick = (recordTick t tick, []) := by
  have nothing : decideOnTick quoting (recordTick t tick) tick turn.nowMonotonicNs = [] :=
    decide_unpriced quoting unpriced tick _
  simp [onTick, nothing]

theorem staleness_untracked (none : t.ourOrders = ∅) : stalenessCheck quoting turn t = (t, []) := by
  have nothing : staleOrders quoting t = [] := by
    unfold staleOrders
    rw [none]
    rfl
  unfold stalenessCheck
  rw [nothing]
  split <;> rfl

-- Sizes that fit the trader's field, as the cast of the publisher leaves them.
structure Sized (entry : ConsolidatedTick) : Prop where
  bid : ∀ n ∈ entry.bidSize, -2^31 ≤ n ∧ n ≤ 2^31 - 1
  ask : ∀ n ∈ entry.askSize, -2^31 ≤ n ∧ n ≤ 2^31 - 1

theorem optionalField_price {body : Body F64} {name : String} (price : Option F64)
    (held : find body name = some (optionValue .float price)) :
    optionalField body name asReal = .ok (finitePart price) := by
  unfold optionalField
  rw [held]
  cases price with
  | none => rfl
  | some x => cases x <;> rfl

theorem optionalField_size {body : Body F64} {name : String} {size : Option ℤ}
    (fits : ∀ n ∈ size, -2^31 ≤ n ∧ n ≤ 2^31 - 1) (held : find body name = some (optionValue .int size)) :
    optionalField body name (asInt (-2^31) (2^31 - 1)) = .ok size := by
  unfold optionalField
  rw [held]
  cases size with
  | none => rfl
  | some n =>
    have read : asInt (-2^31) (2^31 - 1) (.int n : Value F64) = some n := if_pos (fits n rfl)
    change (readAs name (asInt (-2^31) (2^31 - 1)) (.int n : Value F64)).map some = _
    unfold readAs
    rw [read]
    rfl

theorem tick_decoded {entry : ConsolidatedTick} (sized : Sized entry) (tsNs : ℕ) (stamp : Option ℕ) :
    decodeTick (tickEvent entry tsNs) stamp =
      .ok ⟨entry.strike, entry.expiry, entry.right, finitePart entry.bid, finitePart entry.ask, entry.bidSize,
        entry.askSize, stamp⟩ := by
  unfold decodeTick
  rw [optionalField_price entry.bid rfl, optionalField_price entry.ask rfl, optionalField_size sized.bid rfl,
    optionalField_size sized.ask rfl]
  rfl

theorem hear_tick (quiet : unfed t = .new) {entry : ConsolidatedTick} (sized : Sized entry) {tsNs : ℕ}
    (stamped : tsNs < 2^64) :
    processEvent quoting turn t (tickEvent entry tsNs) =
      ({ t with options := t.options.set (quoteKey entry) (quoteState entry) }, []) := by
  have stamp : optional (tickEvent entry tsNs) "ts_ns" (asNat 64) = .ok (some tsNs) := by
    have held : find (tickEvent entry tsNs) "ts_ns" = some (.int tsNs) := rfl
    simp [Wire.optional, held, readAs, asNat_int stamped, Except.map]
  have generic : decodeGeneric (tickEvent entry tsNs) = .ok ⟨"tick", some tsNs⟩ := by
    unfold decodeGeneric
    rw [stamp]
    rfl
  simp only [processEvent, generic, tick_decoded sized]
  rw [onTick_unpriced quoting turn (unfed_fields quiet).1]
  rfl

theorem hear_surface (t : TraderState) (ev : VolSurfaceEvent) :
    processEvent quoting turn t ev.encode = ({ t with volSurfaces := t.volSurfaces.set ev.key ev.entry }, []) := by
  have stamp : optional ev.encode "ts_ns" (asNat 64) = .ok (some ev.tsNs) := by
    have held : find ev.encode "ts_ns" = some (.int ev.tsNs) := rfl
    simp [Wire.optional, held, readAs, asNat_int ev.stamped, Except.map]
  have generic : decodeGeneric ev.encode = .ok ⟨"vol_surface", some ev.tsNs⟩ := by
    unfold decodeGeneric
    rw [stamp]
    rfl
  simp only [processEvent, generic, published_decodes]
  rfl

theorem hear_risk (t : TraderState) (capital : ℚ) (tsNs : ℕ) (r : Runtime) (usd : F64) :
    processEvent quoting turn t (riskStateEvent capital tsNs r usd) =
      match riskStateOf (riskStateEvent capital tsNs r usd) with
      | some risk => (takeRiskState turn t risk, [])
      | none => (t, []) := by
  unfold riskStateOf
  cases decoded : decodeGeneric (riskStateEvent capital tsNs r usd) with
  | error e => rw [processEvent_undecoded decoded]
  | ok generic =>
    have kind : generic.msgType = "risk_state" := by
      obtain ⟨kind, typed, rest⟩ := bind_ok decoded
      obtain ⟨stamp, -, same⟩ := bind_ok rest
      cases typed
      cases same
      rfl
    simp only [processEvent, decoded, kind, if_true]
    cases decodeRiskState (riskStateEvent capital tsNs r usd) <;> rfl

-- A frame of a kind the trader has no arm for.
theorem hear_other (t : TraderState) {body : Body F64} {kind : String} (typed : find body "type" = some (.str kind))
    (other : kind ∈ ["order_status", "fill", "connection", "vol_surface_failed"]) :
    processEvent quoting turn t body = (t, []) := by
  cases decoded : decodeGeneric body with
  | error e => rw [processEvent_undecoded decoded]
  | ok generic =>
    have own : generic.msgType = kind := by
      obtain ⟨read, first, rest⟩ := bind_ok decoded
      obtain ⟨stamp, -, same⟩ := bind_ok rest
      unfold required at first
      rw [typed] at first
      cases first
      cases same
      rfl
    unfold processEvent
    rw [decoded]
    simp only [own]
    simp only [List.mem_cons, List.not_mem_nil, or_false] at other
    rcases other with same | same | same | same
    all_goals
      rw [same]
      rfl

end Hearing

section Run

variable (quoting : Quoting) (ymd : NaiveDate → String) (capital : ℚ)

theorem wrapI32_fits (n : ℕ) : -2^31 ≤ Hedge.wrapI32 n ∧ Hedge.wrapI32 n ≤ 2^31 - 1 := by
  unfold Hedge.wrapI32
  omega

theorem update_sized {entry : ConsolidatedTick} (sized : Sized entry) (tick : Tick) : Sized (entry.update tick) := by
  have wrapped : ∀ n ∈ tick.size.map Hedge.wrapI32, -2^31 ≤ n ∧ n ≤ 2^31 - 1 := by
    intro n member
    obtain ⟨size, -, same⟩ := Option.mem_map.mp member
    rw [← same]
    exact wrapI32_fits size
  unfold ConsolidatedTick.update
  cases tick.kind with
  | bid => exact ⟨sized.bid, sized.ask⟩
  | ask => exact ⟨sized.bid, sized.ask⟩
  | bidSize => exact ⟨wrapped, sized.ask⟩
  | askSize => exact ⟨sized.bid, wrapped⟩
  | last => exact sized
  | volume => exact sized

def CacheSized (cache : TickCache) : Prop := ∀ id, ∀ entry ∈ cache.get id, Sized entry

theorem of_sized (t : OptionTick) : Sized (.of ymd t) := by
  constructor <;> simp [ConsolidatedTick.of]

-- A tick is published as its instrument's entry, or not at all.
theorem publishTick_cases (md : MarketDataState) {cache : TickCache} (sized : CacheSized cache) (tick : Tick) :
    publishTick ymd md cache tick = (cache, []) ∨
      ∃ entry, publishTick ymd md cache tick =
        (cache.set tick.instrumentId entry, [tickEvent entry tick.timestampNs]) ∧ Sized entry := by
  by_cases sent : forwards md tick.instrumentId tick = true
  · right
    obtain ⟨consumed, t, registered⟩ := forwards_own.mp sent
    refine ⟨_, publishTick_forwarded ymd cache consumed registered, update_sized ?_ tick⟩
    cases held : cache.get tick.instrumentId with
    | none => exact of_sized ymd t
    | some entry => exact sized tick.instrumentId entry held
  · left
    exact publishTick_quiet ymd (by simpa using sent) cache

structure FeedGood (outcomes : List FeedOutcome) (s : Feed) : Prop where
  sized : CacheSized s.cache
  knows : Knows outcomes s.trader

theorem quiet_step {outcomes : List FeedOutcome} {t : TraderState} (knows : Knows outcomes t) :
    Knows (outcomes ++ []) t := by
  rwa [List.append_nil]

theorem knows_heard {outcomes : List FeedOutcome} {t next : TraderState} (knows : Knows outcomes t) {news : News}
    (options : ∀ k, next.options.get k = Register.last quoteKey quoteState (optionTicks (outcomes ++ [.heard news])) k)
    (surfaced : ∀ k, next.volSurfaces.get k =
      Register.last VolSurfaceEvent.key VolSurfaceEvent.entry (fitted (outcomes ++ [.heard news])) k)
    (risk : (next.riskEffectiveDelta, next.riskMarginPct) =
      (((risks (outcomes ++ [.heard news])).getLast?).map (·.effectiveDelta),
        ((risks (outcomes ++ [.heard news])).getLast?).map (·.marginPct)))
    (rest : unfed next = unfed t) : Knows (outcomes ++ [.heard news]) next := by
  constructor
  · intro c member
    rcases List.mem_append.mp member with earlier | own
    · exact knows.silent c earlier
    · cases List.mem_singleton.mp own
  · exact options
  · exact surfaced
  · exact risk
  · rw [rest, knows.rest]

theorem hear_quote {outcomes : List FeedOutcome} {t : TraderState} (knows : Knows outcomes t)
    (entry : ConsolidatedTick) :
    Knows (outcomes ++ [.heard (.quote entry)])
      { t with options := t.options.set (quoteKey entry) (quoteState entry) } := by
  apply knows_heard knows
  · intro k
    rw [HashMap.get_set, knows.options]
    simp only [optionTicks, List.filterMap_append, List.filterMap_cons, List.filterMap_nil]
    rw [Register.last_snoc]
    simp only [eq_comm]
  · simpa [fitted] using knows.surfaces
  · simpa [risks] using knows.risk
  · rfl

theorem hear_fit {outcomes : List FeedOutcome} {t : TraderState} (knows : Knows outcomes t) (ev : VolSurfaceEvent) :
    Knows (outcomes ++ [.heard (.surface ev)]) { t with volSurfaces := t.volSurfaces.set ev.key ev.entry } := by
  apply knows_heard knows
  · simpa [optionTicks] using knows.options
  · intro k
    rw [HashMap.get_set, knows.surfaces]
    simp only [fitted, List.filterMap_append, List.filterMap_cons, List.filterMap_nil]
    rw [Register.last_snoc]
    simp only [eq_comm]
  · simpa [risks] using knows.risk
  · rfl

theorem hear_gates {outcomes : List FeedOutcome} {t : TraderState} (knows : Knows outcomes t) (turn : Trader.Turn)
    (r : RiskStateMsg) : Knows (outcomes ++ [.heard (.risk r)]) (takeRiskState turn t r) := by
  apply knows_heard knows
  · simpa [optionTicks, takeRiskState] using knows.options
  · simpa [fitted, takeRiskState] using knows.surfaces
  · simp [risks, takeRiskState]
  · rfl

theorem unheard_knows {outcomes : List FeedOutcome} {t : TraderState} (knows : Knows outcomes t)
    (turn : Trader.Turn) {body : Body F64} {kind : String} (typed : find body "type" = some (.str kind))
    (other : kind ∈ ["order_status", "fill", "connection", "vol_surface_failed"]) :
    (heard quoting turn t [body]).2 = [] ∧ Knows (outcomes ++ []) (heard quoting turn t [body]).1 := by
  rw [heard_one, hear_other quoting turn t typed other]
  exact ⟨rfl, quiet_step knows⟩

-- What each publisher writes tells the trader its news, and gets no command back.
theorem published_knows {outcomes : List FeedOutcome} {s : Feed} (good : FeedGood outcomes s) (turn : Trader.Turn)
    (input : FeedInput) :
    (heard quoting turn s.trader (bodies ymd capital s input)).2 = [] ∧
      Knows (outcomes ++ (newsOf ymd capital s input).map .heard)
        (heard quoting turn s.trader (bodies ymd capital s input)).1 := by
  have knows := good.knows
  cases input with
  | daemon e => exact ⟨rfl, quiet_step knows⟩
  | register product strike expiry right id => exact ⟨rfl, quiet_step knows⟩
  | tick tick stamped =>
    unfold bodies newsOf
    rcases publishTick_cases ymd s.daemon.runtime.marketData good.sized tick with quiet | ⟨entry, sent, sized⟩
    · simp only [quiet]
      exact ⟨rfl, quiet_step knows⟩
    · simp only [sent, HashMap.get_set]
      rw [heard_one, hear_tick quoting turn knows.rest sized stamped]
      exact ⟨rfl, hear_quote knows entry⟩
  | status u => exact unheard_knows quoting knows turn rfl (by simp)
  | fill f => exact unheard_knows quoting knows turn rfl (by simp)
  | connection ev => exact unheard_knows quoting knows turn rfl (by simp)
  | riskState tsNs usd =>
    unfold bodies newsOf
    simp only
    rw [heard_one, hear_risk]
    cases riskStateOf (riskStateEvent capital tsNs s.daemon.runtime usd) with
    | none => exact ⟨rfl, quiet_step knows⟩
    | some r => exact ⟨rfl, hear_gates knows turn r⟩
  | surface ev =>
    unfold bodies newsOf
    simp only
    rw [heard_one, hear_surface]
    exact ⟨rfl, hear_fit knows ev⟩
  | surfaceFailed ev => exact unheard_knows quoting knows turn rfl (by simp)
  | stalenessLoop => exact ⟨rfl, quiet_step knows⟩

theorem advanced_sized {outcomes : List FeedOutcome} {s : Feed} (good : FeedGood outcomes s) (input : FeedInput) :
    CacheSized (advanced ymd s input).cache := by
  cases input with
  | tick tick stamped =>
    unfold advanced
    rcases publishTick_cases ymd s.daemon.runtime.marketData good.sized tick with quiet | ⟨entry, sent, sized⟩
    · simp only [quiet]
      exact good.sized
    · simp only [sent]
      intro id other held
      rw [HashMap.get_set] at held
      split at held
      · cases held
        exact sized
      · exact good.sized id other held
  | _ => exact good.sized

theorem reaction_knows {outcomes : List FeedOutcome} {s : Feed} (good : FeedGood outcomes s) (t : FeedTurn) :
    (reaction quoting ymd capital s t).2 = [] ∧
      Knows (outcomes ++ (if t.ringFull then [] else newsOf ymd capital s t.input).map .heard)
        (reaction quoting ymd capital s t).1 := by
  have published := published_knows quoting ymd capital good t.turn t.input
  have dropped : Knows (outcomes ++ ([] : List News).map .heard) s.trader := quiet_step good.knows
  unfold reaction
  cases own : t.input with
  | stalenessLoop =>
    simp only
    rw [staleness_untracked quoting t.turn (unfed_fields good.knows.rest).2]
    refine ⟨rfl, ?_⟩
    cases t.ringFull <;> exact dropped
  | _ =>
    rw [own] at published
    cases t.ringFull with
    | true => exact ⟨rfl, dropped⟩
    | false => exact published

theorem feed_step {outcomes : List FeedOutcome} {s : Feed} (good : FeedGood outcomes s) (t : FeedTurn) :
    FeedGood (outcomes ++ (feedStep quoting ymd capital s t).2) (feedStep quoting ymd capital s t).1 := by
  obtain ⟨nothing, knows⟩ := reaction_knows quoting ymd capital good t
  constructor
  · exact advanced_sized ymd good t.input
  · simp only [feedStep, nothing, List.map_nil, List.append_nil]
    exact knows

theorem start_knows : Knows [] .new := by
  constructor
  · simp
  · exact fun k => HashMap.get_empty k
  · exact fun k => HashMap.get_empty k
  · rfl
  · rfl

-- Whatever the daemon does, the trader it feeds is three tables of its latest news, and sends nothing.
theorem feed_exact (daemon : DaemonState) (inputs : List FeedTurn) :
    Knows (Machine.emitted (feedStep quoting ymd capital) (.start daemon) inputs)
      (Machine.after (feedStep quoting ymd capital) (.start daemon) inputs).trader := by
  refine (Machine.traces (fun _ out s => FeedGood out s) ?_ ?_ inputs).knows
  · intro past out s input good
    exact feed_step quoting ymd capital good input
  · exact ⟨by simp [CacheSized, Feed.start], start_knows⟩

end Run

end Corsair.Daemon
