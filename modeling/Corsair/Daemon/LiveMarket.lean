import Corsair.Daemon.Tasks
import Corsair.Lib.Channel
import Corsair.Lib.Register
import Corsair.Native.TickRoutes

namespace Corsair.Daemon

open BrokerApi Book MarketData Native Channel

-- broker.rs
def TICK_CHANNEL_CAP : ℕ := 16384

-- The adapter with its subscriptions, the broadcast of ticks, and the runtime that
-- pump_ticks writes into.
structure LiveMarket where
  session : Session
  nextHandle : ℤ
  handleToReqId : HashMap ℕ ℤ
  ticks : Receiver TICK_CHANNEL_CAP Tick
  runtime : Runtime

def LiveMarket.start (runtime : Runtime) : LiveMarket :=
  ⟨.new, 1, ∅, .new, { runtime with marketData := .new }⟩

-- What register_option is called with.
structure Registration where
  product : String
  strike : ℚ
  expiry : NaiveDate
  right : Right
  instrumentId : InstrumentId

def Registration.key (reg : Registration) : OptionKey := optionKey reg.product reg.strike reg.expiry reg.right

def Registration.fresh (reg : Registration) : OptionTick :=
  { OptionTick.new reg.strike reg.expiry reg.right with instrumentId := some reg.instrumentId }

-- What the other tasks do to the runtime leaves its market data alone.
inductive LiveEvent where
  | subscribeTicks (instrumentId : InstrumentId)
  | unsubscribeTicks (handle : ℕ)
  | session (event : SessionEvent) (other : subscription event = false)
  | registerOption (reg : Registration)
  | registerUnderlying (product : String) (instrumentId : InstrumentId)
  | pumpTicks
  | elsewhere (change : Runtime → Runtime) (apart : ∀ r, (change r).marketData = r.marketData)

inductive Address where
  | option (k : OptionKey)
  | underlying (product : String)
  | nobody
  deriving DecidableEq

inductive LiveFact where
  | opened (handle : ℕ) (reqId : ℤ) (instrumentId : InstrumentId)
  | closed (handle : ℕ) (reqId : ℤ)
  | broadcast (tick : Tick)
  | overwritten (tick : Tick)
  | optionNamed (reg : Registration)
  | underlyingNamed (product : String) (instrumentId : InstrumentId)
  | heard (dest : Address) (tick : Tick)

def addressOf (md : MarketDataState) (instrumentId : InstrumentId) : Address :=
  match md.byInstrument.get instrumentId with
  | some k => .option k
  | none => match md.underlyingInstruments.get instrumentId with
    | some product => .underlying product
    | none => .nobody

def LiveMarket.withMarket (s : LiveMarket) (md : MarketDataState) : LiveMarket :=
  { s with runtime := { s.runtime with marketData := md } }

section Step

variable (chrono : Chrono) (formats : Formats) (account : String)

def LiveMarket.dispatched (s : LiveMarket) (event : SessionEvent) : LiveMarket × List LiveFact :=
  let (session, outs) := sessionStep chrono formats account s.session event
  let sent := outs.filterMap broadcastOf
  let (ticks, lost) := s.ticks.sendAll sent
  ({ s with session, ticks }, sent.map .broadcast ++ lost.map .overwritten)

def LiveMarket.subscribed (s : LiveMarket) (instrumentId : InstrumentId) : LiveMarket × List LiveFact :=
  let reqId := s.session.nextReqId
  let handle := wrapU64 s.nextHandle
  ({ s with
      session := (sessionStep chrono formats account s.session (.ticksSubscribed instrumentId)).1
      nextHandle := addI32 s.nextHandle 1
      handleToReqId := s.handleToReqId.set handle reqId },
    [.opened handle reqId instrumentId])

def LiveMarket.unsubscribed (s : LiveMarket) (handle : ℕ) : LiveMarket × List LiveFact :=
  match s.handleToReqId.get handle with
  | none => (s, [])
  | some reqId =>
    ({ s with
        session := (sessionStep chrono formats account s.session (.ticksUnsubscribed reqId)).1
        handleToReqId := s.handleToReqId.remove handle },
      [.closed handle reqId])

def LiveMarket.pumped (s : LiveMarket) : LiveMarket × List LiveFact :=
  match s.ticks.recv with
  | (ticks, .value tick) =>
    ({ s with ticks, runtime := pumpTick s.runtime tick }, [.heard (addressOf s.runtime.marketData tick.instrumentId) tick])
  | (ticks, _) => ({ s with ticks }, [])

def liveStep (s : LiveMarket) : LiveEvent → LiveMarket × List LiveFact
  | .subscribeTicks instrumentId => s.subscribed chrono formats account instrumentId
  | .unsubscribeTicks handle => s.unsubscribed chrono formats account handle
  | .session event _ => s.dispatched chrono formats account event
  | .registerOption reg =>
    (s.withMarket (s.runtime.marketData.registerOption reg.product reg.strike reg.expiry reg.right reg.instrumentId),
      [.optionNamed reg])
  | .registerUnderlying product instrumentId =>
    (s.withMarket (s.runtime.marketData.registerUnderlying product instrumentId),
      [.underlyingNamed product instrumentId])
  | .pumpTicks => s.pumped
  | .elsewhere change _ => ({ s with runtime := change s.runtime }, [])

end Step

-- What the facts so far make of a subscription, of an instrument and of a quote.
section Facts

variable (facts : List LiveFact)

def routeOf (reqId : ℤ) : Option InstrumentId :=
  (Register.latest (fun
    | .opened _ taken instrumentId => if taken = reqId then some (some instrumentId) else none
    | .closed _ freed => if freed = reqId then some none else none
    | _ => none) facts).join

def reqIdOf (handle : ℕ) : Option ℤ :=
  (Register.latest (fun
    | .opened taken reqId _ => if taken = handle then some (some reqId) else none
    | .closed freed _ => if freed = handle then some none else none
    | _ => none) facts).join

def keyOf (instrumentId : InstrumentId) : Option OptionKey :=
  Register.latest (fun
    | .optionNamed reg => if reg.instrumentId = instrumentId then some reg.key else none
    | _ => none) facts

def productOf (instrumentId : InstrumentId) : Option String :=
  Register.latest (fun
    | .underlyingNamed product named => if named = instrumentId then some product else none
    | _ => none) facts

def addressed (instrumentId : InstrumentId) : Address :=
  match keyOf facts instrumentId with
  | some k => .option k
  | none => match productOf facts instrumentId with
    | some product => .underlying product
    | none => .nobody

-- A contract keeps what its first registration made of it.
def firstNamed (k : OptionKey) : Option Registration :=
  (facts.filterMap fun
    | .optionNamed reg => if reg.key = k then some reg else none
    | _ => none).head?

def positivePrice (tick : Tick) : Option ℚ := (tick.price.map F64.exact).filter (0 < ·)

-- The newest positive price of some kinds.
def priceAt (dest : Address) (kinds : List TickKind) : Option ℚ :=
  Register.latest (fun
    | .heard address tick =>
      if address = dest ∧ tick.kind ∈ kinds then positivePrice tick else none
    | _ => none) facts

def stampAt (dest : Address) : Option ℕ :=
  Register.latest (fun
    | .heard address tick =>
      if address = dest ∧ tick.kind ∈ [.bid, .ask, .last] ∧ tick.price.isSome then some tick.timestampNs else none
    | _ => none) facts

def quoteOf (k : OptionKey) : Option OptionTick :=
  (firstNamed facts k).map fun reg =>
    { reg.fresh with
      bid := (priceAt facts (.option k) [.bid]).getD 0
      ask := (priceAt facts (.option k) [.ask]).getD 0
      last := (priceAt facts (.option k) [.last]).getD 0
      lastUpdatedNs := (stampAt facts (.option k)).getD 0 }

def broadcasts : List Tick := facts.filterMap fun
  | .broadcast tick => some tick
  | _ => none

def overwritten : List Tick := facts.filterMap fun
  | .overwritten tick => some tick
  | _ => none

def heardTicks : List Tick := facts.filterMap fun
  | .heard _ tick => some tick
  | _ => none

end Facts

-- The adapter's two tables are what the openings and closings make them.
structure Subscribed (facts : List LiveFact) (s : LiveMarket) : Prop where
  routes : ∀ reqId, s.session.broker.tickRoutes.get reqId = routeOf facts reqId
  handles : ∀ handle, s.handleToReqId.get handle = reqIdOf facts handle

-- The market data is what the registrations and the ticks heard make it, with no size
-- and no vol in any quote.
structure Quoted (facts : List LiveFact) (md : MarketDataState) : Prop where
  named : ∀ instrumentId, md.byInstrument.get instrumentId = keyOf facts instrumentId
  products : ∀ instrumentId, md.underlyingInstruments.get instrumentId = productOf facts instrumentId
  options : ∀ k, md.options.get k = quoteOf facts k
  underlying : ∀ product, md.underlying.get product = priceAt facts (.underlying product) [.bid, .last]
  spoken : ∀ k tick, .heard (.option k) tick ∈ facts → firstNamed facts k ≠ none

-- What was broadcast is heard once each and in order, but for what a full channel lost.
structure Carried (facts : List LiveFact) (s : LiveMarket) : Prop where
  books : Accounted (broadcasts facts) (heardTicks facts ++ s.ticks.pending) (overwritten facts)
  sized : ∀ tick ∈ s.ticks.pending, tick.price = none ∨ tick.size = none

def LiveFact.subscribes : LiveFact → Bool
  | .opened .. | .closed .. => true
  | _ => false

def LiveFact.quotes : LiveFact → Bool
  | .optionNamed _ | .underlyingNamed .. | .heard .. => true
  | _ => false

section Apart

variable {facts later : List LiveFact} {s next : LiveMarket} {md : MarketDataState}

theorem latest_apart {part : LiveFact → Bool} (apart : ∀ fact ∈ later, part fact = false) {V : Type*}
    {tells : LiveFact → Option V} (own : ∀ fact, part fact = false → tells fact = none) :
    Register.latest tells (facts ++ later) = Register.latest tells facts :=
  Register.latest_silent tells fun fact member => own fact (apart fact member)

theorem subscribed_apart (given : Subscribed facts s) (apart : ∀ fact ∈ later, fact.subscribes = false)
    (routes : next.session.broker.tickRoutes = s.session.broker.tickRoutes)
    (handles : next.handleToReqId = s.handleToReqId) : Subscribed (facts ++ later) next := by
  constructor
  · intro reqId
    rw [routes, given.routes, routeOf, routeOf, latest_apart apart]
    intro fact other
    cases fact <;> first | rfl | cases other
  · intro handle
    rw [handles, given.handles, reqIdOf, reqIdOf, latest_apart apart]
    intro fact other
    cases fact <;> first | rfl | cases other

theorem firstNamed_append (k : OptionKey) :
    firstNamed (facts ++ later) k = (firstNamed facts k).or (firstNamed later k) := by
  rw [firstNamed, List.filterMap_append, List.head?_append]
  rfl

theorem quoted_apart (given : Quoted facts md) (apart : ∀ fact ∈ later, fact.quotes = false) :
    Quoted (facts ++ later) md := by
  have unpriced (dest : Address) (kinds : List TickKind) :
      priceAt (facts ++ later) dest kinds = priceAt facts dest kinds := by
    apply latest_apart apart
    intro fact other
    cases fact <;> first | rfl | cases other
  have unstamped (dest : Address) : stampAt (facts ++ later) dest = stampAt facts dest := by
    apply latest_apart apart
    intro fact other
    cases fact <;> first | rfl | cases other
  have unnamed (k : OptionKey) : firstNamed (facts ++ later) k = firstNamed facts k := by
    have none : firstNamed later k = none := by
      rw [firstNamed, List.head?_eq_none_iff, List.filterMap_eq_nil_iff]
      intro fact member
      have other := apart fact member
      cases fact <;> first | rfl | cases other
    rw [firstNamed_append, none, Option.or_none]
  constructor
  · intro instrumentId
    rw [given.named, keyOf, keyOf, latest_apart apart]
    intro fact other
    cases fact <;> first | rfl | cases other
  · intro instrumentId
    rw [given.products, productOf, productOf, latest_apart apart]
    intro fact other
    cases fact <;> first | rfl | cases other
  · intro k
    rw [given.options]
    simp only [quoteOf, unpriced, unstamped, unnamed]
  · intro product
    rw [given.underlying, unpriced]
  · intro k tick member
    rw [unnamed]
    rcases List.mem_append.mp member with before | now
    · exact given.spoken k tick before
    · cases apart _ now

end Apart

section Events

variable {facts : List LiveFact} {s : LiveMarket} {md : MarketDataState}

theorem unheard {dest : Address} (silent : ∀ tick, .heard dest tick ∉ facts) (kinds : List TickKind) :
    priceAt facts dest kinds = none ∧ stampAt facts dest = none := by
  have nothing {V : Type} {tells : LiveFact → Option V}
      (own : ∀ fact v, tells fact = some v → ∃ tick, fact = .heard dest tick) : Register.latest tells facts = none := by
    by_contra told
    obtain ⟨v, found⟩ := Option.ne_none_iff_exists'.mp told
    obtain ⟨fact, member, said⟩ := Register.latest_told tells found
    obtain ⟨tick, rfl⟩ := own fact v said
    exact silent tick member
  constructor
  · apply nothing
    intro fact v said
    cases fact with
    | heard address tick =>
      simp only [Option.ite_none_right_eq_some] at said
      exact ⟨tick, by rw [said.1.1]⟩
    | _ => cases said
  · apply nothing
    intro fact v said
    cases fact with
    | heard address tick =>
      simp only [Option.ite_none_right_eq_some] at said
      exact ⟨tick, by rw [said.1.1]⟩
    | _ => cases said

theorem registerOption_get (reg : Registration) (k : OptionKey) :
    (md.registerOption reg.product reg.strike reg.expiry reg.right reg.instrumentId).options.get k =
      (md.options.get k).or (if reg.key = k then some reg.fresh else none) := by
  have key : optionKey reg.product reg.strike reg.expiry reg.right = reg.key := rfl
  unfold MarketDataState.registerOption
  simp only [key]
  cases there : md.options.get reg.key with
  | none =>
    dsimp only
    rw [HashMap.get_set]
    by_cases own : k = reg.key
    · rw [own, there, if_pos rfl, if_pos rfl]
      rfl
    · rw [if_neg own, if_neg (Ne.symm own), Option.or_none]
  | some t =>
    by_cases own : reg.key = k
    · rw [← own, there]
      rfl
    · rw [if_neg own, Option.or_none]

theorem option_quoted (given : Quoted facts md) (reg : Registration) :
    Quoted (facts ++ [.optionNamed reg])
      (md.registerOption reg.product reg.strike reg.expiry reg.right reg.instrumentId) := by
  have unpriced (dest : Address) (kinds : List TickKind) :
      priceAt (facts ++ [.optionNamed reg]) dest kinds = priceAt facts dest kinds := by
    simp [priceAt, Register.latest_snoc]
  have unstamped (dest : Address) : stampAt (facts ++ [.optionNamed reg]) dest = stampAt facts dest := by
    simp [stampAt, Register.latest_snoc]
  have first (k : OptionKey) : firstNamed (facts ++ [.optionNamed reg]) k =
      (firstNamed facts k).or (if reg.key = k then some reg else none) := by
    rw [firstNamed_append]
    by_cases own : reg.key = k <;> simp [firstNamed, own]
  constructor
  · intro instrumentId
    simp only [MarketDataState.registerOption, HashMap.get_set, given.named, keyOf, Register.latest_snoc]
    by_cases own : instrumentId = reg.instrumentId
    · simp [own, Registration.key]
    · simp [own, Ne.symm own]
  · intro instrumentId
    simp [MarketDataState.registerOption, given.products, productOf, Register.latest_snoc]
  · intro k
    rw [registerOption_get, given.options]
    simp only [quoteOf, first, unpriced, unstamped]
    cases named : firstNamed facts k with
    | some before => rfl
    | none =>
      have silent : ∀ tick, .heard (.option k) tick ∉ facts := fun tick member => given.spoken k tick member named
      simp only [(unheard silent _).1, (unheard silent []).2, Option.getD_none]
      by_cases own : reg.key = k <;> simp [own, Registration.fresh, OptionTick.new]
  · intro product
    rw [unpriced]
    exact given.underlying product
  · intro k tick member
    have before : LiveFact.heard (.option k) tick ∈ facts := by simpa using member
    rw [first]
    obtain ⟨named, there⟩ := Option.ne_none_iff_exists'.mp (given.spoken k tick before)
    simp [there]

theorem underlying_quoted (given : Quoted facts md) (product : String) (instrumentId : InstrumentId) :
    Quoted (facts ++ [.underlyingNamed product instrumentId]) (md.registerUnderlying product instrumentId) := by
  constructor
  · intro other
    simp [MarketDataState.registerUnderlying, given.named, keyOf, Register.latest_snoc]
  · intro other
    simp only [MarketDataState.registerUnderlying, HashMap.get_set, given.products, productOf, Register.latest_snoc]
    by_cases own : other = instrumentId
    · simp [own]
    · simp [own, Ne.symm own]
  · intro k
    simp [MarketDataState.registerUnderlying, given.options, quoteOf, firstNamed, priceAt, stampAt, Register.latest_snoc]
  · intro other
    simp [MarketDataState.registerUnderlying, given.underlying, priceAt, Register.latest_snoc]
  · intro k tick member
    have before : LiveFact.heard (.option k) tick ∈ facts := by simpa using member
    simpa [firstNamed] using given.spoken k tick before

-- What a tick does to the quote it is for.
def quotedBy (tick : Tick) (t : OptionTick) : OptionTick :=
  match tick.price, tick.kind with
  | some price, .bid =>
    { t with bid := if 0 < price.exact then price.exact else t.bid, bidSize := tick.size.getD 0
             lastUpdatedNs := tick.timestampNs }
  | some price, .ask =>
    { t with ask := if 0 < price.exact then price.exact else t.ask, askSize := tick.size.getD 0
             lastUpdatedNs := tick.timestampNs }
  | some price, .last =>
    { t with last := if 0 < price.exact then price.exact else t.last, lastUpdatedNs := tick.timestampNs }
  | _, _ => t

theorem updateOption_get (md : MarketDataState) (own k : OptionKey) (f : OptionTick → OptionTick) :
    (md.updateOption own f).options.get k = if own = k then (md.options.get k).map f else md.options.get k := by
  rw [MarketDataState.updateOption, HashMap.get_modify]
  by_cases same : k = own
  · subst same
    simp
  · simp [same, Ne.symm same]

theorem updateUnderlying_get (md : MarketDataState) (instrumentId : InstrumentId) (price : ℚ) (product : String) :
    (md.updateUnderlying instrumentId price).underlying.get product =
      if md.underlyingInstruments.get instrumentId = some product ∧ 0 < price then some price
      else md.underlying.get product := by
  unfold MarketDataState.updateUnderlying
  cases found : md.underlyingInstruments.get instrumentId with
  | none => simp
  | some own =>
    unfold MarketDataState.setUnderlying
    by_cases positive : 0 < price
    · by_cases same : own = product
      · simp [positive, same, HashMap.get_set]
      · simp [positive, same, HashMap.get_set, Ne.symm same]
    · simp [positive]

structure Pumped (tick : Tick) (before after : MarketDataState) : Prop where
  named : after.byInstrument = before.byInstrument
  products : after.underlyingInstruments = before.underlyingInstruments
  options : ∀ k, after.options.get k =
    if addressOf before tick.instrumentId = .option k then (before.options.get k).map (quotedBy tick)
    else before.options.get k
  underlying : ∀ product, after.underlying.get product =
    if addressOf before tick.instrumentId = .underlying product ∧ tick.kind ∈ [.bid, .last] then
      (positivePrice tick).or (before.underlying.get product)
    else before.underlying.get product

theorem pumped_option {tick : Tick} {own : OptionKey} (named : md.byInstrument.get tick.instrumentId = some own) :
    Pumped tick md (md.updateOption own (quotedBy tick)) := by
  refine ⟨rfl, rfl, ?_, ?_⟩
  · intro k
    rw [updateOption_get, addressOf, named]
    simp
  · intro product
    rw [addressOf, named]
    simp [MarketDataState.updateOption]

theorem pumped_underlying {tick : Tick} {price : F64} (unnamed : md.byInstrument.get tick.instrumentId = none)
    (kind : tick.kind ∈ [.bid, .last]) (priced : tick.price = some price) :
    Pumped tick md (md.updateUnderlying tick.instrumentId price.exact) := by
  have options : (md.updateUnderlying tick.instrumentId price.exact).options = md.options := by
    unfold MarketDataState.updateUnderlying MarketDataState.setUnderlying
    split
    · split <;> rfl
    · rfl
  constructor
  · unfold MarketDataState.updateUnderlying MarketDataState.setUnderlying
    split
    · split <;> rfl
    · rfl
  · unfold MarketDataState.updateUnderlying MarketDataState.setUnderlying
    split
    · split <;> rfl
    · rfl
  · intro k
    have elsewhere : addressOf md tick.instrumentId ≠ .option k := by
      rw [addressOf, unnamed]
      dsimp only
      split <;> simp
    rw [if_neg elsewhere, options]
  · intro product
    rw [updateUnderlying_get, addressOf, unnamed]
    cases md.underlyingInstruments.get tick.instrumentId with
    | none => simp
    | some own =>
      by_cases same : own = product
      · by_cases positive : 0 < price.exact <;> simp [same, kind, positivePrice, priced, positive, Option.filter]
      · simp [same]

-- Everything but a priced bid or last changes nothing where no option is named.
theorem pumped_nothing {tick : Tick} (mute : quotedBy tick = id ∨ md.byInstrument.get tick.instrumentId = none)
    (other : positivePrice tick = none ∨ tick.kind ∉ [.bid, .last]) : Pumped tick md md := by
  refine ⟨rfl, rfl, ?_, ?_⟩
  · intro k
    rcases mute with same | unnamed
    · rw [same, Option.map_id_fun, id, ite_self]
    · have elsewhere : addressOf md tick.instrumentId ≠ .option k := by
        rw [addressOf, unnamed]
        dsimp only
        split <;> simp
      rw [if_neg elsewhere]
  · intro product
    rcases other with unpriced | apart
    · rw [unpriced, Option.none_or, ite_self]
    · rw [if_neg fun given => apart given.2]

theorem pumpTick_pumped (r : Runtime) (tick : Tick) : Pumped tick r.marketData (pumpTick r tick).marketData := by
  cases priced : tick.price with
  | none =>
    have same : pumpTick r tick = r := by simp only [pumpTick, priced]
    rw [same]
    refine pumped_nothing (.inl ?_) (.inl ?_)
    · funext t
      simp only [quotedBy, priced, id]
    · simp only [positivePrice, priced, Option.map_none, Option.filter_none]
  | some price =>
    cases kind : tick.kind with
    | bid =>
      cases named : r.marketData.byInstrument.get tick.instrumentId with
      | some own =>
        have effect := pumped_option named
        have written : quotedBy tick = fun t => { t with
            bid := if 0 < price.exact then price.exact else t.bid, bidSize := tick.size.getD 0
            lastUpdatedNs := tick.timestampNs } := by
          funext t
          simp only [quotedBy, priced, kind]
        simpa only [pumpTick, priced, kind, MarketDataState.updateBid, named, written] using effect
      | none =>
        have effect := @pumped_underlying _ _ price named (by simp [kind]) priced
        simpa only [pumpTick, priced, kind, MarketDataState.updateBid, named] using effect
    | ask =>
      cases named : r.marketData.byInstrument.get tick.instrumentId with
      | some own =>
        have effect := pumped_option named
        have written : quotedBy tick = fun t => { t with
            ask := if 0 < price.exact then price.exact else t.ask, askSize := tick.size.getD 0
            lastUpdatedNs := tick.timestampNs } := by
          funext t
          simp only [quotedBy, priced, kind]
        simpa only [pumpTick, priced, kind, MarketDataState.updateAsk, named, written] using effect
      | none =>
        have effect := pumped_nothing (.inr named) (.inr (by simp [kind]))
        simpa only [pumpTick, priced, kind, MarketDataState.updateAsk, named] using effect
    | last =>
      cases named : r.marketData.byInstrument.get tick.instrumentId with
      | some own =>
        have effect := pumped_option named
        have written : quotedBy tick = fun t => { t with
            last := if 0 < price.exact then price.exact else t.last, lastUpdatedNs := tick.timestampNs } := by
          funext t
          simp only [quotedBy, priced, kind]
        simpa only [pumpTick, priced, kind, MarketDataState.updateLast, named, written] using effect
      | none =>
        have effect := @pumped_underlying _ _ price named (by simp [kind]) priced
        simpa only [pumpTick, priced, kind, MarketDataState.updateLast, named] using effect
    | _ =>
      have same : pumpTick r tick = r := by simp only [pumpTick, priced, kind]
      rw [same]
      refine pumped_nothing (.inl ?_) (.inr (by simp [kind]))
      funext t
      simp only [quotedBy, priced, kind, id]

theorem priceAt_heard (address dest : Address) (tick : Tick) (kinds : List TickKind) :
    priceAt (facts ++ [.heard address tick]) dest kinds =
      if address = dest ∧ tick.kind ∈ kinds then (positivePrice tick).or (priceAt facts dest kinds)
      else priceAt facts dest kinds := by
  rw [priceAt, Register.latest_snoc]
  dsimp only
  split <;> rfl

theorem stampAt_heard (address dest : Address) (tick : Tick) :
    stampAt (facts ++ [.heard address tick]) dest =
      if address = dest ∧ tick.kind ∈ [.bid, .ask, .last] ∧ tick.price.isSome then some tick.timestampNs
      else stampAt facts dest := by
  rw [stampAt, Register.latest_snoc]
  dsimp only
  split <;> rfl

theorem firstNamed_heard (address : Address) (tick : Tick) (k : OptionKey) :
    firstNamed (facts ++ [.heard address tick]) k = firstNamed facts k := by
  simp [firstNamed]

theorem positive_getD (tick : Tick) {price : F64} (priced : tick.price = some price) (before : Option ℚ) :
    ((positivePrice tick).or before).getD 0 = if 0 < price.exact then price.exact else before.getD 0 := by
  by_cases positive : 0 < price.exact <;> simp [positivePrice, priced, positive, Option.filter]

theorem quoteOf_heard {tick : Tick} (sized : tick.price = none ∨ tick.size = none) (address : Address) (k : OptionKey) :
    quoteOf (facts ++ [.heard address tick]) k =
      if address = .option k then (quoteOf facts k).map (quotedBy tick) else quoteOf facts k := by
  simp only [quoteOf, firstNamed_heard, priceAt_heard, stampAt_heard]
  by_cases own : address = .option k
  · rw [if_pos own, Option.map_map]
    congr 1
    funext reg
    simp only [own, true_and, Function.comp]
    cases priced : tick.price with
    | none => simp [quotedBy, positivePrice, priced]
    | some price =>
      have sizeless : tick.size = none := by simpa [priced] using sized
      cases kind : tick.kind <;>
        simp [quotedBy, positive_getD tick priced, priced, kind, sizeless, Registration.fresh, OptionTick.new]
  · simp only [own, false_and, if_false]

theorem keyOf_named {instrumentId : InstrumentId} {k : OptionKey} (named : keyOf facts instrumentId = some k) :
    firstNamed facts k ≠ none := by
  obtain ⟨fact, member, told⟩ := Register.latest_told _ named
  cases fact with
  | optionNamed reg =>
    simp only [Option.ite_none_right_eq_some] at told
    intro missing
    rw [firstNamed, List.head?_eq_none_iff, List.filterMap_eq_nil_iff] at missing
    have absent := missing _ member
    dsimp only at absent
    rw [if_pos (Option.some.inj told.2)] at absent
    cases absent
  | _ => cases told

theorem heard_quoted (given : Quoted facts md) {tick : Tick} (sized : tick.price = none ∨ tick.size = none)
    {after : MarketDataState} (pumped : Pumped tick md after) :
    Quoted (facts ++ [.heard (addressOf md tick.instrumentId) tick]) after := by
  constructor
  · intro instrumentId
    simp [pumped.named, given.named, keyOf, Register.latest_snoc]
  · intro instrumentId
    simp [pumped.products, given.products, productOf, Register.latest_snoc]
  · intro k
    rw [pumped.options, given.options, quoteOf_heard sized]
  · intro product
    rw [pumped.underlying, given.underlying, priceAt_heard]
  · intro k other member
    rw [firstNamed_heard]
    rcases List.mem_append.mp member with before | now
    · exact given.spoken k other before
    · have same : LiveFact.heard (.option k) other = .heard (addressOf md tick.instrumentId) tick := by
        simpa using now
      injection same with address _
      have named : md.byInstrument.get tick.instrumentId = some k := by
        unfold addressOf at address
        split at address
        · cases address
          assumption
        · split at address <;> cases address
      exact keyOf_named ((given.named _).symm.trans named)

end Events

section Run

variable (chrono : Chrono) (formats : Formats) (account : String)

variable {facts : List LiveFact} {s : LiveMarket}

theorem subscribed_opened (given : Subscribed facts s) (instrumentId : InstrumentId) :
    Subscribed (facts ++ (s.subscribed chrono formats account instrumentId).2)
      (s.subscribed chrono formats account instrumentId).1 := by
  constructor
  · intro reqId
    change (s.session.broker.tickRoutes.set s.session.nextReqId instrumentId).get reqId = routeOf (facts ++ [_]) reqId
    rw [HashMap.get_set, given.routes, routeOf, routeOf, Register.latest_snoc]
    by_cases own : reqId = s.session.nextReqId
    · simp [own]
    · simp [own, Ne.symm own]
  · intro handle
    change (s.handleToReqId.set (wrapU64 s.nextHandle) s.session.nextReqId).get handle = reqIdOf (facts ++ [_]) handle
    rw [HashMap.get_set, given.handles, reqIdOf, reqIdOf, Register.latest_snoc]
    by_cases own : handle = wrapU64 s.nextHandle
    · simp [own]
    · simp [own, Ne.symm own]

theorem subscribed_closed (given : Subscribed facts s) (handle : ℕ) :
    Subscribed (facts ++ (s.unsubscribed chrono formats account handle).2)
      (s.unsubscribed chrono formats account handle).1 := by
  unfold LiveMarket.unsubscribed
  cases held : s.handleToReqId.get handle with
  | none =>
    rw [List.append_nil]
    exact given
  | some reqId =>
    constructor
    · intro other
      change (s.session.broker.tickRoutes.remove reqId).get other = routeOf (facts ++ [_]) other
      rw [HashMap.get_remove, given.routes, routeOf, routeOf, Register.latest_snoc]
      by_cases own : other = reqId
      · simp [own]
      · simp [own, Ne.symm own]
    · intro other
      change (s.handleToReqId.remove handle).get other = reqIdOf (facts ++ [_]) other
      rw [HashMap.get_remove, given.handles, reqIdOf, reqIdOf, Register.latest_snoc]
      by_cases own : other = handle
      · simp [own]
      · simp [own, Ne.symm own]

theorem pumped_cases (s : LiveMarket) :
    (∃ tick rest, s.ticks.pending = tick :: rest ∧ s.pumped.1.ticks.pending = rest ∧
      s.pumped.1.session = s.session ∧ s.pumped.1.handleToReqId = s.handleToReqId ∧
      s.pumped.1.runtime = pumpTick s.runtime tick ∧
      s.pumped.2 = [.heard (addressOf s.runtime.marketData tick.instrumentId) tick]) ∨
    (s.pumped.1.ticks.pending = s.ticks.pending ∧ s.pumped.1.session = s.session ∧
      s.pumped.1.handleToReqId = s.handleToReqId ∧ s.pumped.1.runtime = s.runtime ∧ s.pumped.2 = []) := by
  unfold LiveMarket.pumped Receiver.recv
  by_cases missed : s.ticks.missed ≠ 0
  · rw [if_pos missed]
    exact .inr ⟨rfl, rfl, rfl, rfl, rfl⟩
  · rw [if_neg missed]
    obtain ⟨session, nextHandle, handles, ⟨pending, lagged, bounded⟩, runtime⟩ := s
    cases pending with
    | nil => exact .inr ⟨rfl, rfl, rfl, rfl, rfl⟩
    | cons tick rest => exact .inl ⟨tick, rest, rfl, rfl, rfl, rfl, rfl, rfl⟩

theorem dispatched_facts (s : LiveMarket) (event : SessionEvent) :
    ∀ fact ∈ (s.dispatched chrono formats account event).2,
      (∃ tick, fact = .broadcast tick) ∨ ∃ tick, fact = .overwritten tick := by
  intro fact member
  rcases List.mem_append.mp member with sent | lost
  · obtain ⟨tick, -, rfl⟩ := List.mem_map.mp sent
    exact .inl ⟨tick, rfl⟩
  · obtain ⟨tick, -, rfl⟩ := List.mem_map.mp lost
    exact .inr ⟨tick, rfl⟩

theorem subscribed_step (given : Subscribed facts s) (event : LiveEvent) :
    Subscribed (facts ++ (liveStep chrono formats account s event).2) (liveStep chrono formats account s event).1 := by
  cases event with
  | subscribeTicks instrumentId => exact subscribed_opened chrono formats account given instrumentId
  | unsubscribeTicks handle => exact subscribed_closed chrono formats account given handle
  | session event other =>
    apply subscribed_apart given
    · intro fact member
      rcases dispatched_facts chrono formats account s event fact member with ⟨tick, rfl⟩ | ⟨tick, rfl⟩ <;> rfl
    · exact session_routes s.session other
    · rfl
  | pumpTicks =>
    simp only [liveStep]
    rcases pumped_cases s with ⟨tick, rest, -, -, session, handles, -, facts⟩ | ⟨-, session, handles, -, facts⟩
    · apply subscribed_apart given
      · intro fact member
        rw [facts, List.mem_singleton] at member
        rw [member]
        rfl
      · rw [session]
      · exact handles
    · apply subscribed_apart given
      · intro fact member
        rw [facts] at member
        cases member
      · rw [session]
      · exact handles
  | registerOption reg => exact subscribed_apart given (by simp [liveStep, LiveFact.subscribes]) rfl rfl
  | registerUnderlying product id => exact subscribed_apart given (by simp [liveStep, LiveFact.subscribes]) rfl rfl
  | elsewhere change apart => exact subscribed_apart given (by simp [liveStep]) rfl rfl

theorem quoted_step (given : Quoted facts s.runtime.marketData)
    (sized : ∀ tick ∈ s.ticks.pending, tick.price = none ∨ tick.size = none) (event : LiveEvent) :
    Quoted (facts ++ (liveStep chrono formats account s event).2)
      (liveStep chrono formats account s event).1.runtime.marketData := by
  cases event with
  | subscribeTicks instrumentId => exact quoted_apart given (by simp [liveStep, LiveMarket.subscribed, LiveFact.quotes])
  | unsubscribeTicks handle =>
    simp only [liveStep, LiveMarket.unsubscribed]
    split
    · rw [List.append_nil]
      exact given
    · exact quoted_apart given (by simp [LiveFact.quotes])
  | session event other =>
    apply quoted_apart given
    intro fact member
    rcases dispatched_facts chrono formats account s event fact member with ⟨tick, rfl⟩ | ⟨tick, rfl⟩ <;> rfl
  | pumpTicks =>
    simp only [liveStep]
    rcases pumped_cases s with ⟨tick, rest, first, -, -, -, runtime, heard⟩ | ⟨-, -, -, runtime, heard⟩
    · rw [runtime, heard]
      exact heard_quoted given (sized tick (by rw [first]; exact List.mem_cons_self)) (pumpTick_pumped s.runtime tick)
    · rw [runtime, heard, List.append_nil]
      exact given
  | registerOption reg => exact option_quoted given reg
  | registerUnderlying product id => exact underlying_quoted given product id
  | elsewhere change apart =>
    simp only [liveStep, List.append_nil, apart]
    exact given

-- Facts that are about no tick leave the account of the ticks as it was.
theorem carried_apart {later : List LiveFact} {next : LiveMarket} (given : Carried facts s)
    (silent : broadcasts later = [] ∧ heardTicks later = [] ∧ overwritten later = []) (ticks : next.ticks = s.ticks) :
    Carried (facts ++ later) next := by
  obtain ⟨sent, heard, lost⟩ := silent
  unfold broadcasts at sent
  unfold heardTicks at heard
  unfold overwritten at lost
  constructor
  · have books := given.books
    unfold broadcasts heardTicks overwritten at books ⊢
    rw [List.filterMap_append, List.filterMap_append, List.filterMap_append, sent, heard, lost, ticks]
    simpa only [List.append_nil] using books
  · rw [ticks]
    exact given.sized

theorem carried_dispatched (given : Carried facts s) (event : SessionEvent) :
    Carried (facts ++ (s.dispatched chrono formats account event).2) (s.dispatched chrono formats account event).1 := by
  unfold LiveMarket.dispatched
  generalize produced : (sessionStep chrono formats account s.session event).2.filterMap broadcastOf = sent
  have moved := s.ticks.sendAll_pending sent
  generalize outcome : s.ticks.sendAll sent = result at moved
  obtain ⟨ticks, lost⟩ := result
  simp only at moved
  simp only [produced, outcome]
  constructor
  · have accepted := given.books.accept sent
    rw [List.append_assoc (heardTicks facts), ← moved, ← List.append_assoc] at accepted
    have books := accepted.forfeit
    unfold broadcasts heardTicks overwritten at books ⊢
    simpa [List.filterMap_append, List.filterMap_map, Function.comp_def] using books
  · intro tick member
    have among : tick ∈ s.ticks.pending ++ sent := moved ▸ List.mem_append_right lost member
    rcases List.mem_append.mp among with before | now
    · exact given.sized tick before
    · obtain ⟨_, _, _, _, _, -, -, reported, -⟩ := session_tick (produced ▸ now)
      exact reported_sized reported

theorem carried_step (given : Carried facts s) (event : LiveEvent) :
    Carried (facts ++ (liveStep chrono formats account s event).2) (liveStep chrono formats account s event).1 := by
  cases event with
  | subscribeTicks instrumentId => exact carried_apart given ⟨rfl, rfl, rfl⟩ rfl
  | unsubscribeTicks handle =>
    simp only [liveStep, LiveMarket.unsubscribed]
    split
    · exact carried_apart given ⟨rfl, rfl, rfl⟩ rfl
    · exact carried_apart given ⟨rfl, rfl, rfl⟩ rfl
  | session event other => exact carried_dispatched chrono formats account given event
  | pumpTicks =>
    simp only [liveStep]
    rcases pumped_cases s with ⟨tick, rest, first, left, -, -, -, heard⟩ | ⟨same, -, -, -, heard⟩
    · constructor
      · have books := given.books
        rw [heard, left]
        rw [first] at books
        simpa [broadcasts, heardTicks, overwritten] using books
      · intro other member
        rw [left] at member
        exact given.sized other (by rw [first]; exact List.mem_cons_of_mem _ member)
    · constructor
      · rw [heard, same, List.append_nil]
        exact given.books
      · rw [same]
        exact given.sized
  | registerOption reg => exact carried_apart given ⟨rfl, rfl, rfl⟩ rfl
  | registerUnderlying product id => exact carried_apart given ⟨rfl, rfl, rfl⟩ rfl
  | elsewhere change apart => exact carried_apart given ⟨rfl, rfl, rfl⟩ rfl

structure Followed (facts : List LiveFact) (s : LiveMarket) : Prop where
  subscriptions : Subscribed facts s
  quotes : Quoted facts s.runtime.marketData
  ticks : Carried facts s

theorem start_followed (runtime : Runtime) : Followed [] (.start runtime) := by
  refine ⟨⟨?_, ?_⟩, ⟨?_, ?_, ?_, ?_, ?_⟩, ⟨.start, ?_⟩⟩
  · exact fun reqId => HashMap.get_empty reqId
  · exact fun handle => HashMap.get_empty handle
  · exact fun instrumentId => HashMap.get_empty instrumentId
  · exact fun instrumentId => HashMap.get_empty instrumentId
  · exact fun k => HashMap.get_empty k
  · exact fun product => HashMap.get_empty product
  · intro k tick member
    cases member
  · intro tick member
    cases member

theorem run_followed (runtime : Runtime) (events : List LiveEvent) :
    Followed (Machine.emitted (liveStep chrono formats account) (.start runtime) events)
      (Machine.after (liveStep chrono formats account) (.start runtime) events) := by
  induction events using List.reverseRecOn with
  | nil => exact start_followed runtime
  | append_singleton events event given =>
    rw [Machine.emitted_append, Machine.after_append]
    simp only [Machine.emitted, Machine.after, List.append_nil]
    exact ⟨subscribed_step chrono formats account given.subscriptions event,
      quoted_step chrono formats account given.quotes given.ticks.sized event,
      carried_step chrono formats account given.ticks event⟩

-- What a new fact rests on in the ones before it.
def Grounded (facts : List LiveFact) (event : LiveEvent) : LiveFact → Prop
  | .broadcast tick => ∃ now publisher fields other msg reqId,
      event = .session (.dispatched now publisher fields) other ∧ parseInbound fields = .ok msg ∧
        TickReport msg reqId tick ∧ routeOf facts reqId = some tick.instrumentId
  | .heard dest tick => dest = addressed facts tick.instrumentId
  | .closed handle reqId => reqIdOf facts handle = some reqId
  | _ => True

theorem step_grounded (given : Followed facts s) (event : LiveEvent) :
    ∀ fact ∈ (liveStep chrono formats account s event).2, Grounded facts event fact := by
  intro fact member
  cases event with
  | subscribeTicks instrumentId =>
    cases List.mem_singleton.mp member
    trivial
  | unsubscribeTicks handle =>
    simp only [liveStep, LiveMarket.unsubscribed] at member
    split at member
    · cases member
    · rename_i reqId held
      cases List.mem_singleton.mp member
      exact (given.subscriptions.handles handle).symm.trans held
  | session event other =>
    rcases List.mem_append.mp member with sent | lost
    · obtain ⟨tick, broadcast, rfl⟩ := List.mem_map.mp sent
      obtain ⟨now, publisher, fields, msg, reqId, rfl, parsed, reported, held⟩ := session_tick broadcast
      exact ⟨now, publisher, fields, other, msg, reqId, rfl, parsed, reported,
        (given.subscriptions.routes reqId).symm.trans held⟩
    · obtain ⟨tick, -, rfl⟩ := List.mem_map.mp lost
      trivial
  | pumpTicks =>
    simp only [liveStep] at member
    rcases pumped_cases s with ⟨tick, rest, -, -, -, -, -, heard⟩ | ⟨-, -, -, -, heard⟩
    · rw [heard, List.mem_singleton] at member
      subst member
      simp only [Grounded, addressOf, addressed, given.quotes.named, given.quotes.products]
    · rw [heard] at member
      cases member
  | registerOption reg =>
    cases List.mem_singleton.mp member
    trivial
  | registerUnderlying product id =>
    cases List.mem_singleton.mp member
    trivial
  | elsewhere change apart => cases member

def defaultIv (registry : ProductRegistry) (product : String) : ℚ :=
  ((HashMap.get registry product).map (·.defaultIv)).getD (3/10)

-- The market as it would be with the default vol of a product on all of its contracts.
def defaultVols (r : Runtime) : MarketView where
  underlyingPrice := r.marketData.view.underlyingPrice
  ivFor product _ _ _ := some (defaultIv r.portfolio.registry product)
  currentPrice := r.marketData.view.currentPrice

-- No quote has a size or a vol, so that the positions are marked at the default vol of
-- their product.
structure Unmarked (r : Runtime) : Prop where
  blank : ∀ k t, r.marketData.options.get k = some t → t.bidSize = 0 ∧ t.askSize = 0 ∧ t.iv = 0
  vols : ∀ product strike expiry right, r.marketData.view.ivFor product strike expiry right = none
  greeks : ∀ pricing,
    greekRefresh pricing r = { r with portfolio := r.portfolio.refreshGreeks pricing (defaultVols r) }

theorem quoted_unmarked {r : Runtime} (given : Quoted facts r.marketData) : Unmarked r := by
  have blank : ∀ k t, r.marketData.options.get k = some t → t.bidSize = 0 ∧ t.askSize = 0 ∧ t.iv = 0 := by
    intro k t held
    rw [given.options, quoteOf, Option.map_eq_some_iff] at held
    obtain ⟨reg, -, rfl⟩ := held
    exact ⟨rfl, rfl, rfl⟩
  have vols : ∀ product strike expiry right, r.marketData.view.ivFor product strike expiry right = none := by
    intro product strike expiry right
    simp only [MarketDataState.view]
    cases held : r.marketData.option product strike expiry right with
    | none => rfl
    | some t =>
      have zero := (blank _ t held).2.2
      simp [zero, Option.filter]
  refine ⟨blank, vols, ?_⟩
  intro pricing
  unfold greekRefresh PortfolioState.refreshGreeks
  congr 2
  apply List.map_congr_left
  intro p _
  unfold PortfolioState.refreshPosition
  simp only [vols]
  rfl

end Run

-- Every run of the subscriptions, the gateway's messages, the registrations and the pump.
theorem live_market_exact (chrono : Chrono) (formats : Formats) (account : String) (runtime : Runtime)
    (events : List LiveEvent) :
    let s := Machine.after (liveStep chrono formats account) (.start runtime) events
    let facts := Machine.emitted (liveStep chrono formats account) (.start runtime) events
    Followed facts s ∧ Unmarked s.runtime ∧
      ∀ event, ∀ fact ∈ (liveStep chrono formats account s event).2, Grounded facts event fact := by
  have followed := run_followed chrono formats account runtime events
  exact ⟨followed, quoted_unmarked followed.quotes, step_grounded chrono formats account followed⟩

end Corsair.Daemon
