import Corsair.Daemon.HedgeOnFill
import Corsair.Daemon.Ipc
import Corsair.Lib.Register

namespace Corsair.Daemon

open BrokerApi MarketData Wire

abbrev TickCache := HashMap InstrumentId ConsolidatedTick

def isConsumable : TickKind → Bool
  | .bid | .ask | .bidSize | .askSize => true
  | .last | .volume => false

-- `cache.entry(id).or_insert_with(..)`
def orInsert (ymd : NaiveDate → String) (cache : TickCache) (id : InstrumentId) (t : OptionTick) : TickCache :=
  match cache.get id with
  | some _ => cache
  | none => cache.set id (.of ymd t)

-- The match of forward_ticks over the entry. Its last arm is `unreachable!()`, a panic.
def writeEntry (cache : TickCache) (tick : Tick) : Option TickCache :=
  match tick.kind with
  | .bid => some (cache.modify tick.instrumentId fun entry => { entry with bid := tick.price })
  | .ask => some (cache.modify tick.instrumentId fun entry => { entry with ask := tick.price })
  | .bidSize => some (cache.modify tick.instrumentId fun entry => { entry with bidSize := tick.size.map Hedge.wrapI32 })
  | .askSize => some (cache.modify tick.instrumentId fun entry => { entry with askSize := tick.size.map Hedge.wrapI32 })
  | .last | .volume => none

-- One tick that forward_ticks takes off its channel.
def forwardTick (ymd : NaiveDate → String) (md : MarketDataState) (cache : TickCache) (tick : Tick) :
    Option (TickCache × List (Body F64)) :=
  if isConsumable tick.kind then
    match optionMeta md tick.instrumentId with
    | none => some (cache, [])
    | some t => (writeEntry (orInsert ymd cache tick.instrumentId t) tick).map fun cache =>
        (cache, ((cache.get tick.instrumentId).map fun entry => tickEvent entry tick.timestampNs).toList)
  else some (cache, [])

inductive TickInput where
  | tick (tick : Tick)
  | register (product : String) (strike : ℚ) (expiry : NaiveDate) (right : Right) (id : InstrumentId)

def advance (r : Runtime) : TickInput → Runtime
  | .tick tick => pumpTick r tick
  | .register product strike expiry right id =>
    { r with marketData := r.marketData.registerOption product strike expiry right id }

-- The market data as the daemon has it, with the cache of the closure or of the pump. A
-- panic ends the pump.
def fastpathStep (ymd : NaiveDate → String) (s : Runtime × TickCache) (input : TickInput) :
    (Runtime × TickCache) × List (Body F64) :=
  match input with
  | .tick tick =>
    let (cache, bodies) := publishTick ymd s.1.marketData s.2 tick
    ((advance s.1 input, cache), bodies)
  | .register .. => ((advance s.1 input, s.2), [])

def forwardStep (ymd : NaiveDate → String) (s : Option (Runtime × TickCache)) (input : TickInput) :
    Option (Runtime × TickCache) × List (Body F64) :=
  match s with
  | none => (none, [])
  | some (r, cache) => match input with
    | .tick tick => match forwardTick ymd r.marketData cache tick with
      | none => (none, [])
      | some (cache, bodies) => (some (advance r input, cache), bodies)
    | .register .. => (some (advance r input, cache), [])

section Agree

variable (ymd : NaiveDate → String)

theorem writeEntry_update {cache : TickCache} {tick : Tick} (consumed : isConsumable tick.kind = true) :
    writeEntry cache tick = some (cache.modify tick.instrumentId (·.update tick)) := by
  unfold writeEntry ConsolidatedTick.update
  cases own : tick.kind with
  | last =>
    rw [own] at consumed
    cases consumed
  | volume =>
    rw [own] at consumed
    cases consumed
  | _ => rfl

theorem orInsert_modify (cache : TickCache) (id : InstrumentId) (t : OptionTick)
    (f : ConsolidatedTick → ConsolidatedTick) :
    (orInsert ymd cache id t).modify id f = cache.set id (f ((cache.get id).getD (.of ymd t))) := by
  unfold orInsert HashMap.modify
  cases held : cache.get id with
  | some entry =>
    simp only [held]
    rfl
  | none =>
    have own : (cache.set id (.of ymd t)).get id = some (.of ymd t) := by
      rw [HashMap.get_set, if_pos rfl]
    simp only [own]
    exact AList.insert_insert cache

theorem forwardTick_publish (md : MarketDataState) (cache : TickCache) (tick : Tick) :
    forwardTick ymd md cache tick = some (publishTick ymd md cache tick) := by
  unfold forwardTick publishTick
  by_cases consumed : isConsumable tick.kind = true
  · rw [if_pos consumed]
    cases found : optionMeta md tick.instrumentId with
    | none => cases tick.kind <;> rfl
    | some t =>
      simp only [writeEntry_update consumed, orInsert_modify, Option.map_some, HashMap.get_set, if_pos]
      cases own : tick.kind with
      | last =>
        rw [own] at consumed
        cases consumed
      | volume =>
        rw [own] at consumed
        cases consumed
      | _ => rfl
  · rw [if_neg consumed]
    cases own : tick.kind with
    | last => rfl
    | volume => rfl
    | _ =>
      rw [own] at consumed
      exact absurd rfl consumed

theorem forwardStep_fastpath (s : Runtime × TickCache) (input : TickInput) :
    forwardStep ymd (some s) input = (some (fastpathStep ymd s input).1, (fastpathStep ymd s input).2) := by
  cases input with
  | tick tick =>
    obtain ⟨r, cache⟩ := s
    simp only [forwardStep, forwardTick_publish, fastpathStep]
  | register => rfl

-- The two consolidators stay in one state and give out the same bodies.
theorem paths_simulate (s : Runtime × TickCache) (inputs : List TickInput) :
    Machine.after (forwardStep ymd) (some s) inputs = some (Machine.after (fastpathStep ymd) s inputs) ∧
      Machine.emitted (forwardStep ymd) (some s) inputs = Machine.emitted (fastpathStep ymd) s inputs := by
  induction inputs generalizing s with
  | nil => exact ⟨rfl, rfl⟩
  | cons input rest next =>
    have step := forwardStep_fastpath ymd s input
    obtain ⟨after, sent⟩ := next (fastpathStep ymd s input).1
    simp only [Machine.after, Machine.emitted, step, after, sent, and_self]

end Agree

-- The ticks received from the first one of an instrument that the paths forward.
def received (inputs : List TickInput) : List Tick :=
  inputs.filterMap fun input => match input with
    | .tick tick => some tick
    | .register .. => none

def forwards (md : MarketDataState) (id : InstrumentId) (tick : Tick) : Bool :=
  isConsumable tick.kind && decide (tick.instrumentId = id) && (optionMeta md id).isSome

def sinceFirst (id : InstrumentId) : Runtime → List TickInput → List Tick
  | _, [] => []
  | r, .tick tick :: rest =>
    if forwards r.marketData id tick then tick :: received rest else sinceFirst id (advance r (.tick tick)) rest
  | r, .register product strike expiry right own :: rest =>
    sinceFirst id (advance r (.register product strike expiry right own)) rest

def latestPrice (ticks : List Tick) (id : InstrumentId) (kind : TickKind) : Option F64 :=
  (Register.last (fun tick : Tick => (tick.instrumentId, tick.kind)) Tick.price ticks (id, kind)).join

def latestSize (ticks : List Tick) (id : InstrumentId) (kind : TickKind) : Option ℕ :=
  (Register.last (fun tick : Tick => (tick.instrumentId, tick.kind)) Tick.size ticks (id, kind)).join

-- An entry with the latest value of each kind, and none for a kind that has not come.
structure Latest (ticks : List Tick) (id : InstrumentId) (entry : ConsolidatedTick) : Prop where
  bid : entry.bid = latestPrice ticks id .bid
  ask : entry.ask = latestPrice ticks id .ask
  bidSize : entry.bidSize = (latestSize ticks id .bidSize).map Hedge.wrapI32
  askSize : entry.askSize = (latestSize ticks id .askSize).map Hedge.wrapI32

-- What the frame of a tick is to carry.
structure TickFrame (ticks : List Tick) (id : InstrumentId) (tsNs : ℕ) (body : Body F64) : Prop where
  type : find body "type" = some (.str "tick")
  bid : find body "bid" = some ((latestPrice ticks id .bid).elim .nil .float)
  ask : find body "ask" = some ((latestPrice ticks id .ask).elim .nil .float)
  bidSize : find body "bid_size" = some ((latestSize ticks id .bidSize).elim .nil fun n => .int n)
  askSize : find body "ask_size" = some ((latestSize ticks id .askSize).elim .nil fun n => .int n)
  tsNs : find body "ts_ns" = some (.int tsNs)

section Registered

theorem optionMeta_some {md : MarketDataState} {id : InstrumentId} :
    (optionMeta md id).isSome ↔ ∃ k, md.byInstrument.get id = some k ∧ (md.options.get k).isSome := by
  unfold optionMeta
  cases md.byInstrument.get id <;> simp

theorem register_registered (md : MarketDataState) (product : String) (strike : ℚ) (expiry : NaiveDate) (right : Right)
    (own id : InstrumentId) (before : (optionMeta md id).isSome) :
    (optionMeta (md.registerOption product strike expiry right own) id).isSome := by
  have kept : ∀ k, (md.options.get k).isSome →
      ((md.registerOption product strike expiry right own).options.get k).isSome := by
    intro k held
    simp only [MarketDataState.registerOption]
    split
    · exact held
    · rw [HashMap.get_set]
      split
      · rfl
      · exact held
  have present : ((md.registerOption product strike expiry right own).options.get
      (optionKey product strike expiry right)).isSome := by
    simp only [MarketDataState.registerOption]
    split
    · rename_i found
      rw [found]
      rfl
    · rw [HashMap.get_set, if_pos rfl]
      rfl
  obtain ⟨k, mapped, held⟩ := optionMeta_some.mp before
  apply optionMeta_some.mpr
  by_cases same : id = own
  · exact ⟨_, by simp [MarketDataState.registerOption, HashMap.get_set, same], present⟩
  · exact ⟨k, by simp [MarketDataState.registerOption, HashMap.get_set, same, mapped], kept k held⟩

theorem modify_registered {md : MarketDataState} {id : InstrumentId} (k : OptionKey) (f : OptionTick → OptionTick)
    (before : (optionMeta md id).isSome) : (optionMeta (md.updateOption k f) id).isSome := by
  obtain ⟨own, mapped, held⟩ := optionMeta_some.mp before
  refine optionMeta_some.mpr ⟨own, mapped, ?_⟩
  simp only [MarketDataState.updateOption, HashMap.get_modify]
  split
  · rename_i same
    rw [← same]
    simpa using held
  · exact held

theorem underlying_registered {md : MarketDataState} {id : InstrumentId} (own : InstrumentId) (price : ℚ)
    (before : (optionMeta md id).isSome) : (optionMeta (md.updateUnderlying own price) id).isSome := by
  unfold MarketDataState.updateUnderlying MarketDataState.setUnderlying
  split
  · split
    · exact before
    · exact before
  · exact before

theorem pump_registered {r : Runtime} {id : InstrumentId} (tick : Tick) (before : (optionMeta r.marketData id).isSome) :
    (optionMeta (pumpTick r tick).marketData id).isSome := by
  unfold pumpTick
  split
  · exact before
  · split
    · unfold MarketDataState.updateBid
      split
      · exact modify_registered _ _ before
      · exact underlying_registered _ _ before
    · unfold MarketDataState.updateAsk
      split
      · exact modify_registered _ _ before
      · exact before
    · unfold MarketDataState.updateLast
      split
      · exact modify_registered _ _ before
      · exact underlying_registered _ _ before
    · exact before

theorem advance_registered {r : Runtime} {id : InstrumentId} (input : TickInput)
    (before : (optionMeta r.marketData id).isSome) : (optionMeta (advance r input).marketData id).isSome := by
  cases input with
  | tick tick => exact pump_registered tick before
  | register product strike expiry right own => exact register_registered _ _ _ _ _ _ _ before

theorem fastpath_runtime (ymd : NaiveDate → String) (r : Runtime) (cache : TickCache) (inputs : List TickInput) :
    (Machine.after (fastpathStep ymd) (r, cache) inputs).1 = inputs.foldl advance r := by
  induction inputs generalizing r cache with
  | nil => rfl
  | cons input rest next =>
    cases input with
    | tick tick => exact next _ _
    | register => exact next _ _

end Registered

section History

variable {id : InstrumentId}

theorem received_concat (inputs : List TickInput) (tick : Tick) :
    received (inputs ++ [.tick tick]) = received inputs ++ [tick] := by
  simp [received]

theorem received_register (inputs : List TickInput) (product : String) (strike : ℚ) (expiry : NaiveDate) (right : Right)
    (own : InstrumentId) : received (inputs ++ [.register product strike expiry right own]) = received inputs := by
  simp [received]

-- An instrument with a forwarded tick is registered, and every tick after that is kept.
theorem sinceFirst_concat (r : Runtime) (inputs : List TickInput) (tick : Tick) :
    sinceFirst id r (inputs ++ [.tick tick]) =
      if sinceFirst id r inputs = [] then (if forwards (inputs.foldl advance r).marketData id tick then [tick] else [])
      else sinceFirst id r inputs ++ [tick] := by
  induction inputs generalizing r with
  | nil => rfl
  | cons input rest next =>
    cases input with
    | tick first =>
      simp only [List.cons_append, sinceFirst, List.foldl_cons]
      split
      · rw [received_concat]
        rfl
      · exact next _
    | register => exact next _

theorem sinceFirst_register (r : Runtime) (inputs : List TickInput) (product : String) (strike : ℚ)
    (expiry : NaiveDate) (right : Right) (own : InstrumentId) :
    sinceFirst id r (inputs ++ [.register product strike expiry right own]) = sinceFirst id r inputs := by
  induction inputs generalizing r with
  | nil => rfl
  | cons input rest next =>
    cases input with
    | tick first =>
      simp only [List.cons_append, sinceFirst]
      split
      · rw [received_register]
      · exact next _
    | register => exact next _

theorem sinceFirst_registered {r : Runtime} {inputs : List TickInput} (some : sinceFirst id r inputs ≠ []) :
    (optionMeta (inputs.foldl advance r).marketData id).isSome := by
  induction inputs using List.reverseRecOn with
  | nil => exact absurd rfl some
  | append_singleton inputs input next =>
    rw [List.foldl_append, List.foldl_cons, List.foldl_nil]
    cases input with
    | register product strike expiry right own =>
      rw [sinceFirst_register] at some
      exact advance_registered _ (next some)
    | tick tick =>
      rw [sinceFirst_concat] at some
      split at some
      · split at some
        · rename_i sent
          simp only [forwards, Bool.and_eq_true] at sent
          exact advance_registered _ sent.2
        · exact absurd rfl some
      · rename_i earlier
        exact advance_registered _ (next earlier)

theorem latest_other {ticks : List Tick} {entry : ConsolidatedTick} (held : Latest ticks id entry) {tick : Tick}
    (other : tick.instrumentId ≠ id ∨ isConsumable tick.kind = false) : Latest (ticks ++ [tick]) id entry := by
  have apart : ∀ kind, isConsumable kind = true → (tick.instrumentId, tick.kind) ≠ (id, kind) := by
    intro kind consumed same
    cases same
    rcases other with elsewhere | idle
    · exact elsewhere rfl
    · rw [consumed] at idle
      cases idle
  constructor
  · rw [held.bid, latestPrice, latestPrice, Register.last_snoc, if_neg (apart .bid rfl)]
  · rw [held.ask, latestPrice, latestPrice, Register.last_snoc, if_neg (apart .ask rfl)]
  · rw [held.bidSize, latestSize, latestSize, Register.last_snoc, if_neg (apart .bidSize rfl)]
  · rw [held.askSize, latestSize, latestSize, Register.last_snoc, if_neg (apart .askSize rfl)]

theorem latest_update {ticks : List Tick} {tick : Tick} {entry : ConsolidatedTick}
    (held : Latest ticks tick.instrumentId entry) : Latest (ticks ++ [tick]) tick.instrumentId (entry.update tick) := by
  unfold ConsolidatedTick.update
  constructor
  · simp only [latestPrice, Register.last_snoc, Prod.mk.injEq, true_and]
    cases tick.kind <;> simp [held.bid, latestPrice]
  · simp only [latestPrice, Register.last_snoc, Prod.mk.injEq, true_and]
    cases tick.kind <;> simp [held.ask, latestPrice]
  · simp only [latestSize, Register.last_snoc, Prod.mk.injEq, true_and]
    cases tick.kind <;> simp [held.bidSize, latestSize]
  · simp only [latestSize, Register.last_snoc, Prod.mk.injEq, true_and]
    cases tick.kind <;> simp [held.askSize, latestSize]

-- The entry of an instrument against its history: there is one once a tick was forwarded.
def Consolidated (id : InstrumentId) (ticks : List Tick) : Option ConsolidatedTick → Prop
  | none => ticks = []
  | some entry => ticks ≠ [] ∧ Latest ticks id entry

theorem latest_of (ymd : NaiveDate → String) (t : OptionTick) : Latest [] id (.of ymd t) := ⟨rfl, rfl, rfl, rfl⟩

theorem consolidated_quiet {r : Runtime} {inputs : List TickInput} {held : Option ConsolidatedTick} {tick : Tick}
    (before : Consolidated id (sinceFirst id r inputs) held)
    (quiet : forwards (inputs.foldl advance r).marketData id tick = false) :
    Consolidated id (sinceFirst id r (inputs ++ [.tick tick])) held := by
  rw [sinceFirst_concat, quiet]
  cases held with
  | none =>
    have nothing : sinceFirst id r inputs = [] := before
    rw [if_pos nothing]
    rfl
  | some entry =>
    obtain ⟨some, latest⟩ := before
    rw [if_neg some]
    refine ⟨by simp, latest_other latest ?_⟩
    have registered := sinceFirst_registered some
    rw [forwards, registered, Bool.and_true, Bool.and_eq_false_iff, decide_eq_false_iff_not] at quiet
    exact quiet.symm

theorem consolidated_forwarded (ymd : NaiveDate → String) {r : Runtime} {inputs : List TickInput}
    {held : Option ConsolidatedTick} {tick : Tick} (t : OptionTick)
    (before : Consolidated tick.instrumentId (sinceFirst tick.instrumentId r inputs) held)
    (sent : forwards (inputs.foldl advance r).marketData tick.instrumentId tick = true) :
    Consolidated tick.instrumentId (sinceFirst tick.instrumentId r (inputs ++ [.tick tick]))
      (some ((held.getD (.of ymd t)).update tick)) := by
  rw [sinceFirst_concat, sent]
  cases held with
  | none =>
    have nothing : sinceFirst tick.instrumentId r inputs = [] := before
    rw [if_pos nothing]
    exact ⟨by simp, latest_update (latest_of ymd t)⟩
  | some entry =>
    rw [if_neg before.1]
    exact ⟨by simp, latest_update before.2⟩

-- What the paths do with a tick: nothing, or the update of its entry and one body.
theorem publishTick_quiet (ymd : NaiveDate → String) {md : MarketDataState} {tick : Tick}
    (quiet : forwards md tick.instrumentId tick = false) (cache : TickCache) :
    publishTick ymd md cache tick = (cache, []) := by
  unfold publishTick
  unfold forwards isConsumable at quiet
  cases own : tick.kind with
  | last => rfl
  | volume => rfl
  | _ =>
    rw [own] at quiet
    simp only [decide_true, Bool.true_and, Option.isSome_eq_false_iff, Option.isNone_iff_eq_none] at quiet
    simp only [quiet]

theorem publishTick_forwarded (ymd : NaiveDate → String) {md : MarketDataState} {tick : Tick} (cache : TickCache)
    (consumed : isConsumable tick.kind = true) {t : OptionTick}
    (registered : optionMeta md tick.instrumentId = some t) :
    publishTick ymd md cache tick =
      (cache.set tick.instrumentId (((cache.get tick.instrumentId).getD (.of ymd t)).update tick),
        [tickEvent (((cache.get tick.instrumentId).getD (.of ymd t)).update tick) tick.timestampNs]) := by
  unfold publishTick
  cases own : tick.kind with
  | last =>
    rw [own] at consumed
    cases consumed
  | volume =>
    rw [own] at consumed
    cases consumed
  | _ => simp only [registered]

theorem forwards_own {md : MarketDataState} {tick : Tick} :
    forwards md tick.instrumentId tick = true ↔
      isConsumable tick.kind = true ∧ ∃ t, optionMeta md tick.instrumentId = some t := by
  simp [forwards, Option.isSome_iff_exists]

theorem cache_consolidated (ymd : NaiveDate → String) (r : Runtime) (inputs : List TickInput) (id : InstrumentId) :
    Consolidated id (sinceFirst id r inputs) ((Machine.after (fastpathStep ymd) (r, ∅) inputs).2.get id) := by
  induction inputs using List.reverseRecOn with
  | nil => exact (HashMap.get_empty id).symm ▸ rfl
  | append_singleton inputs input before =>
    rw [Machine.after_append]
    have runtime := fastpath_runtime ymd r ∅ inputs
    cases input with
    | register product strike expiry right own =>
      rw [sinceFirst_register]
      exact before
    | tick tick =>
      simp only [Machine.after, fastpathStep, runtime]
      by_cases sent : forwards (inputs.foldl advance r).marketData tick.instrumentId tick = true
      · obtain ⟨consumed, t, registered⟩ := forwards_own.mp sent
        rw [publishTick_forwarded ymd _ consumed registered, HashMap.get_set]
        by_cases own : id = tick.instrumentId
        · rw [if_pos own]
          subst own
          exact consolidated_forwarded ymd t before sent
        · rw [if_neg own]
          apply consolidated_quiet before
          simp [forwards, Ne.symm own]
      · rw [publishTick_quiet ymd (by simpa using sent)]
        apply consolidated_quiet before
        by_cases own : tick.instrumentId = id
        · rw [← own]
          simpa using sent
        · simp [forwards, own]

end History

section Claim

variable (ymd : NaiveDate → String) (r : Runtime)

theorem small_latest {ticks : List Tick} (small : ∀ tick ∈ ticks, ∀ n ∈ tick.size, n < 2 ^ 31) (id : InstrumentId)
    (kind : TickKind) : (latestSize ticks id kind).map Hedge.wrapI32 = (latestSize ticks id kind).map Nat.cast := by
  cases found : latestSize ticks id kind with
  | none => rw [Option.map_none, Option.map_none]
  | some n =>
    obtain ⟨tick, member, -, own⟩ := Register.last_held _ _ (Option.join_eq_some_iff.mp found)
    have bound := small tick member n own
    simp only [Option.map_some, Option.some.injEq, Hedge.wrapI32]
    omega

theorem received_sinceFirst (id : InstrumentId) (inputs : List TickInput) :
    ∀ tick ∈ sinceFirst id r inputs, tick ∈ received inputs := by
  induction inputs using List.reverseRecOn with
  | nil => simp [sinceFirst]
  | append_singleton inputs input next =>
    intro tick member
    cases input with
    | register product strike expiry right own =>
      rw [sinceFirst_register] at member
      rw [received_register]
      exact next tick member
    | tick last =>
      rw [received_concat]
      rw [sinceFirst_concat] at member
      split at member
      · split at member
        · exact List.mem_append_right _ member
        · cases member
      · rcases List.mem_append.mp member with earlier | own
        · exact List.mem_append_left _ (next tick earlier)
        · exact List.mem_append_right _ own

theorem optionValue_elim {α : Type} (f : α → Value F64) (v : Option α) : optionValue f v = v.elim .nil f := by
  cases v <;> rfl

theorem tickEvent_frame {ticks : List Tick} {id : InstrumentId} {entry : ConsolidatedTick} (latest : Latest ticks id entry)
    (small : ∀ tick ∈ ticks, ∀ n ∈ tick.size, n < 2 ^ 31) (tsNs : ℕ) :
    TickFrame ticks id tsNs (tickEvent entry tsNs) := by
  have sizes (kind : TickKind) : optionValue .int ((latestSize ticks id kind).map Hedge.wrapI32) =
      (latestSize ticks id kind).elim .nil fun n => .int n := by
    rw [small_latest small, optionValue_elim]
    cases latestSize ticks id kind <;> rfl
  constructor
  · rfl
  · rw [← latest.bid, ← optionValue_elim]
    rfl
  · rw [← latest.ask, ← optionValue_elim]
    rfl
  · rw [← sizes, ← latest.bidSize]
    rfl
  · rw [← sizes, ← latest.askSize]
    rfl
  · rfl

theorem frame_sent (inputs : List TickInput) {tick : Tick}
    (small : ∀ other ∈ received (inputs ++ [.tick tick]), ∀ n ∈ other.size, n < 2 ^ 31)
    (consumed : isConsumable tick.kind = true) {t : OptionTick}
    (registered : optionMeta (inputs.foldl advance r).marketData tick.instrumentId = some t) :
    ∃ body, (fastpathStep ymd (Machine.after (fastpathStep ymd) (r, ∅) inputs) (.tick tick)).2 = [body] ∧
      TickFrame (sinceFirst tick.instrumentId r (inputs ++ [.tick tick])) tick.instrumentId tick.timestampNs body := by
  have runtime := fastpath_runtime ymd r ∅ inputs
  have after := cache_consolidated ymd r (inputs ++ [.tick tick]) tick.instrumentId
  rw [Machine.after_append] at after
  simp only [Machine.after, fastpathStep, runtime, publishTick_forwarded ymd _ consumed registered,
    HashMap.get_set, if_pos] at after ⊢
  have bounds : ∀ other ∈ sinceFirst tick.instrumentId r (inputs ++ [.tick tick]), ∀ n ∈ other.size, n < 2 ^ 31 :=
    fun other member => small other (received_sinceFirst r _ _ other member)
  obtain ⟨-, latest⟩ := after
  exact ⟨_, rfl, tickEvent_frame latest bounds _⟩

theorem tick_paths_agree (inputs : List TickInput)
    (small : ∀ tick ∈ received inputs, ∀ n ∈ tick.size, n < 2 ^ 31) :
    Machine.emitted (forwardStep ymd) (some (r, ∅)) inputs = Machine.emitted (fastpathStep ymd) (r, ∅) inputs ∧
    ∀ past tick later, inputs = past ++ .tick tick :: later → isConsumable tick.kind = true →
      (optionMeta (past.foldl advance r).marketData tick.instrumentId).isSome →
      ∃ body, (fastpathStep ymd (Machine.after (fastpathStep ymd) (r, ∅) past) (.tick tick)).2 = [body] ∧
        (forwardStep ymd (Machine.after (forwardStep ymd) (some (r, ∅)) past) (.tick tick)).2 = [body] ∧
        TickFrame (sinceFirst tick.instrumentId r (past ++ [.tick tick])) tick.instrumentId tick.timestampNs body := by
  refine ⟨(paths_simulate ymd (r, ∅) inputs).2, ?_⟩
  intro past tick later split consumed registered
  obtain ⟨t, found⟩ := Option.isSome_iff_exists.mp registered
  have bounds : ∀ other ∈ received (past ++ [.tick tick]), ∀ n ∈ other.size, n < 2 ^ 31 := by
    intro other member
    refine small other ?_
    rw [split, ← List.singleton_append, ← List.append_assoc, received, List.filterMap_append]
    exact List.mem_append_left _ member
  obtain ⟨body, sent, carried⟩ := frame_sent ymd r past bounds consumed found
  refine ⟨body, sent, ?_, carried⟩
  rw [(paths_simulate ymd (r, ∅) past).1, forwardStep_fastpath, sent]

end Claim

-- A bid and then the size of the ask: the ask itself has not come.
def bidTick : Tick := ⟨900, .bid, some (.finite 1), none, 5⟩
def sizeTick : Tick := ⟨900, .askSize, none, some 7, 6⟩

theorem tick_paths_agree_call :
    ∃ body, Machine.emitted (forwardStep fun _ => "20260626") (some (deepCall, ∅)) [.tick bidTick, .tick sizeTick] =
        Machine.emitted (fastpathStep fun _ => "20260626") (deepCall, ∅) [.tick bidTick, .tick sizeTick] ∧
      (forwardStep (fun _ => "20260626") (Machine.after (forwardStep fun _ => "20260626") (some (deepCall, ∅))
        [.tick bidTick]) (.tick sizeTick)).2 = [body] ∧
      find body "bid" = some (.float (.finite 1)) ∧ find body "ask" = some .nil ∧
      find body "bid_size" = some .nil ∧ find body "ask_size" = some (.int 7) := by
  have small : ∀ tick ∈ received [.tick bidTick, .tick sizeTick], ∀ n ∈ tick.size, n < 2 ^ 31 := by decide
  have claim := tick_paths_agree (fun _ => "20260626") deepCall _ small
  obtain ⟨body, -, sent, carried⟩ := claim.2 [.tick bidTick] sizeTick [] rfl rfl (by decide +kernel)
  have since : sinceFirst sizeTick.instrumentId deepCall ([.tick bidTick] ++ [.tick sizeTick]) = [bidTick, sizeTick] := by
    decide +kernel
  rw [since] at carried
  exact ⟨body, claim.1, sent, carried.bid, carried.ask, carried.bidSize, carried.askSize⟩

end Corsair.Daemon
