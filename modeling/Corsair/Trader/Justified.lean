import Corsair.Lib.Register
import Corsair.Trader.Edge
import Corsair.Trader.Throttle

namespace Corsair.Trader

open Wire Machine Register

-- What a frame of the broker tells, apart from ticks and acknowledgements. A risk state
-- counts from the time the trader took it.
inductive Told where
  | price (underlying : ℚ)
  | surface (vs : VolSurfaceMsg)
  | risk (r : RiskStateMsg) (nowMonotonicNs : ℕ)
  | killed (source reason : String)
  | resumed (source : String)
  | weekend (paused : Bool)
  | hello (config : Body F64)

def Told.ofDecoded {α : Type} (told : α → Told) (decoded : Decoded α) : Option Told :=
  match decoded with
  | .ok message => some (told message)
  | .error _ => none

def toldOf (input : Turn × TraderInput) : Option Told :=
  match input.2 with
  | .stalenessLoop => none
  | .event body => match decodeGeneric body with
    | .error _ => none
    | .ok generic => match generic.msgType with
      | "underlying_tick" => Told.ofDecoded .price (decodeUnderlyingTick body)
      | "vol_surface" => Told.ofDecoded .surface (decodeVolSurface body)
      | "risk_state" => Told.ofDecoded (.risk · input.1.nowMonotonicNs) (decodeRiskState body)
      | "kill" => some (.killed (textField body "source" "?") (textField body "reason" "?"))
      | "resume" => some (.resumed (textField body "source" "?"))
      | "weekend_pause" => some (.weekend (((find body "paused").bind asBool).getD false))
      | "hello" => ((find body "config").bind asMap).map .hello
      | _ => none

def hear (s : TraderState) : Told → TraderState
  | .price underlying => { s with underlyingPrice := underlying }
  | .surface vs => takeVolSurface s vs
  | .risk r nowMonotonicNs =>
    { s with
      riskEffectiveDelta := some r.effectiveDelta
      riskMarginPct := some r.marginPct
      riskStateAgeMonotonicNs := nowMonotonicNs }
  | .killed source reason => { s with kills := s.kills.set source reason }
  | .resumed source => { s with kills := s.kills.remove source }
  | .weekend paused => { s with weekendPaused := paused }
  | .hello config => takeHello s config

-- All that the trader knows but for its own books.
def TraderState.bookless (s : TraderState) : TraderState :=
  { s with options := ∅, ourOrders := ∅, orderidToKey := ∅ }

section Heard

variable {quoting : Quoting} {turn : Turn} {s : TraderState}

theorem onTick_bookless (tick : TickMsg) : (onTick quoting turn s tick).1.bookless = s.bookless := by
  unfold onTick
  dsimp only
  split
  · rfl
  · refine List.foldlRecOn (motive := fun t : TraderState => t.bookless = s.bookless) _ _ rfl ?_
    exact fun _ kept _ _ => kept

theorem stalenessCheck_bookless : (stalenessCheck quoting turn s).1.bookless = s.bookless := by
  unfold stalenessCheck
  split
  · rfl
  · refine List.foldlRecOn (motive := fun t : TraderState => t.bookless = s.bookless) _ _ rfl ?_
    exact fun _ kept _ _ => kept

theorem takePlaceAck_bookless (ack : PlaceAckMsg) : (takePlaceAck turn s ack).bookless = s.bookless := by
  unfold takePlaceAck
  dsimp only
  split <;> rfl

theorem takeOrderAck_bookless (ack : OrderAckMsg) : (takeOrderAck s ack).bookless = s.bookless := by
  rcases @takeOrderAck_cases s ack with same | ⟨_, _, _, ⟨_, taken⟩ | ⟨_, _, taken⟩⟩
  · rw [same]
  · rw [taken]
    rfl
  · rw [taken]
    rfl

theorem heard_decoded {α : Type} (told : α → Told) (decoded : Decoded α) :
    orElseKeep s decoded (fun message => hear s (told message)) = (Told.ofDecoded told decoded).elim s (hear s) := by
  cases decoded with
  | ok message => rfl
  | error e => rfl

-- A frame does to the rest of the state what it tells.
theorem processEvent_hears (body : Body F64) :
    (processEvent quoting turn s body).1.bookless = ((toldOf (turn, .event body)).elim s (hear s)).bookless := by
  cases decoded : decodeGeneric body with
  | error e =>
    rw [processEvent_undecoded decoded]
    simp only [toldOf, decoded]
    rfl
  | ok generic =>
    unfold processEvent toldOf
    simp only [decoded]
    split
    all_goals rename_i kind
    · simp only [kind]
      split
      · exact onTick_bookless _
      · rfl
    · simp only [kind]
      exact congrArg TraderState.bookless (heard_decoded .price _)
    · simp only [kind]
      exact congrArg TraderState.bookless (heard_decoded .surface _)
    · simp only [kind]
      exact congrArg TraderState.bookless (heard_decoded (.risk · turn.nowMonotonicNs) _)
    · simp only [kind]
      cases decodePlaceAck body with
      | ok ack => exact takePlaceAck_bookless ack
      | error e => rfl
    · simp only [kind]
      cases decodeOrderAck body with
      | ok ack => exact takeOrderAck_bookless ack
      | error e => rfl
    · simp only [kind]
      rfl
    · simp only [kind]
      rfl
    · simp only [kind]
      rfl
    · simp only [kind]
      cases (find body "config").bind asMap with
      | some config => rfl
      | none => rfl
    · split
      all_goals first | contradiction | rfl

end Heard

-- The questions the gates ask of all that was told, and the answer of one message.
def Told.price? : Told → Option ℚ
  | .price underlying => some underlying
  | _ => none

def Told.surface? (key : String × Char) : Told → Option VolSurfaceMsg
  | .surface vs => if key = (vs.expiry, sideChar vs.side) then some vs else none
  | _ => none

def Told.risk? : Told → Option (RiskStateMsg × ℕ)
  | .risk r nowMonotonicNs => some (r, nowMonotonicNs)
  | _ => none

def Told.kill? (source : String) : Told → Option (Option String)
  | .killed killer reason => if source = killer then some (some reason) else none
  | .resumed resumer => if source = resumer then some none else none
  | _ => none

def Told.weekend? : Told → Option Bool
  | .weekend paused => some paused
  | _ => none

def Told.setting? {α : Type} (name : String) (read : Value F64 → Option α) : Told → Option α
  | .hello config => (find config name).bind read
  | _ => none

def asTicks (v : Value F64) : Option ℤ := (asInt (-2^63) (2^63 - 1) v).map fun n => (n + 2^31) % 2^32 - 2^31

def setting {α : Type} (told : List Told) (name : String) (read : Value F64 → Option α) (default : α) : α :=
  (latest (Told.setting? name read) told).getD default

-- The state is the latest answer to each, or what it was built with.
structure Standing (told : List Told) (s : TraderState) : Prop where
  price : s.underlyingPrice = (latest Told.price? told).getD 0
  surfaces : ∀ key, s.volSurfaces.get key = (latest (Told.surface? key) told).map fun vs => ⟨vs.forward, vs.params⟩
  delta : s.riskEffectiveDelta = (latest Told.risk? told).map (·.1.effectiveDelta)
  margin : s.riskMarginPct = (latest Told.risk? told).map (·.1.marginPct)
  age : s.riskStateAgeMonotonicNs = ((latest Told.risk? told).map Prod.snd).getD 0
  kills : ∀ source, s.kills.get source = (latest (Told.kill? source) told).join
  weekend : s.weekendPaused = (latest Told.weekend? told).getD false
  minEdgeTicks : s.minEdgeTicks = setting told "min_edge_ticks" asTicks 2
  tickSize : s.tickSize = setting told "tick_size" asReal (1/2000)
  deltaCeiling : s.deltaCeiling = setting told "delta_ceiling" asReal 3
  deltaKill : s.deltaKill = setting told "delta_kill" asReal 5
  marginCeilingPct : s.marginCeilingPct = setting told "margin_ceiling_pct" asReal (1/2)

section Run

variable {quoting : Quoting} {s : TraderState} {told : List Told}

theorem setting_heard {α : Type} (told : List Told) (message : Told) (name : String) (read : Value F64 → Option α)
    (default : α) : setting (told ++ [message]) name read default =
      (message.setting? name read).getD (setting told name read default) := by
  unfold setting
  rw [latest_snoc]
  cases message.setting? name read <;> rfl

theorem standing_new : Standing [] TraderState.new where
  price := rfl
  surfaces _ := rfl
  delta := rfl
  margin := rfl
  age := rfl
  kills _ := rfl
  weekend := rfl
  minEdgeTicks := rfl
  tickSize := rfl
  deltaCeiling := rfl
  deltaKill := rfl
  marginCeilingPct := rfl

theorem hear_stands (standing : Standing told s) (message : Told) : Standing (told ++ [message]) (hear s message) := by
  obtain ⟨price, surfaces, delta, margin, age, kills, weekend, minEdgeTicks, tickSize, deltaCeiling, deltaKill,
    marginCeilingPct⟩ := standing
  have number : ∀ config name (held : ℚ) default, held = setting told name asReal default →
      ((find config name).bind asReal).getD held = setting (told ++ [.hello config]) name asReal default := by
    intro config name held default known
    rw [setting_heard, known]
    rfl
  constructor
  all_goals cases message
  -- What a message says nothing of, and what it sets outright.
  all_goals first | rw [setting_heard] | simp only [latest_snoc]
  all_goals try first | assumption | rfl
  case surfaces.surface vs =>
    intro key
    change (s.volSurfaces.set _ _).get key = _
    rw [HashMap.get_set, surfaces key]
    change _ = Option.map _ ((if key = (vs.expiry, sideChar vs.side) then some vs else none).or _)
    split <;> rfl
  case kills.killed source reason =>
    intro other
    change (s.kills.set source reason).get other = _
    rw [HashMap.get_set, kills other]
    change _ = ((if other = source then some (some reason) else none).or _).join
    split <;> rfl
  case kills.resumed source =>
    intro other
    change (s.kills.remove source).get other = _
    rw [HashMap.get_remove, kills other]
    change _ = ((if other = source then some none else none).or _).join
    split <;> rfl
  case minEdgeTicks.hello config =>
    rw [← minEdgeTicks]
    change (Option.map _ _).getD _ = _
    rw [Option.map_bind]
    rfl
  case tickSize.hello config => exact (number config "tick_size" _ _ tickSize).trans (setting_heard ..)
  case deltaCeiling.hello config => exact (number config "delta_ceiling" _ _ deltaCeiling).trans (setting_heard ..)
  case deltaKill.hello config => exact (number config "delta_kill" _ _ deltaKill).trans (setting_heard ..)
  case marginCeilingPct.hello config =>
    exact (number config "margin_ceiling_pct" _ _ marginCeilingPct).trans (setting_heard ..)

theorem standing_bookless : Standing told s.bookless ↔ Standing told s := by
  constructor
  all_goals
    intro standing
    obtain ⟨price, surfaces, delta, margin, age, kills, weekend, minEdgeTicks, tickSize, deltaCeiling, deltaKill,
      marginCeilingPct⟩ := standing
    exact ⟨price, surfaces, delta, margin, age, kills, weekend, minEdgeTicks, tickSize, deltaCeiling, deltaKill,
      marginCeilingPct⟩

theorem step_hears (input : Turn × TraderInput) :
    (traderStep quoting s input).1.bookless = ((toldOf input).elim s (hear s)).bookless := by
  obtain ⟨turn, body | _⟩ := input
  · exact processEvent_hears body
  · exact stalenessCheck_bookless

theorem step_stands (standing : Standing told s) (input : Turn × TraderInput) :
    Standing (told ++ (toldOf input).toList) (traderStep quoting s input).1 := by
  rw [← standing_bookless, step_hears, standing_bookless]
  cases toldOf input with
  | none => simpa using standing
  | some message => exact hear_stands standing message

theorem run_stands (inputs : List (Turn × TraderInput)) :
    Standing (inputs.filterMap toldOf) (after (traderStep quoting) .new inputs) := by
  refine follows (fun past s => Standing (past.filterMap toldOf) s) ?_ standing_new inputs
  intro past s input standing
  rw [List.filterMap_append]
  have next := @step_stands quoting s _ standing input
  cases told : toldOf input with
  | none =>
    rw [told] at next
    simpa [told] using next
  | some message =>
    rw [told] at next
    simpa [told] using next

end Run

-- The surface of the option's own side, else of the calls, else of the puts.
def surfaceTold (told : List Told) (expiry : String) (right : Char) : Option VolSurfaceMsg :=
  (latest (Told.surface? (expiry, right)) told).or
    ((latest (Told.surface? (expiry, 'C')) told).or (latest (Told.surface? (expiry, 'P')) told))

def edgeTold (told : List Told) : ℚ :=
  setting told "min_edge_ticks" asTicks 2 * setting told "tick_size" asReal (1/2000)

def targetTold (told : List Told) (theo : ℚ) : Side → ℚ
  | .buy => theo - edgeTold told
  | .sell => theo + edgeTold told

-- All that stands behind a quote, in what the broker has told and the tick it answers.
structure Justified (quoting : Quoting) (told : List Told) (turn : Turn) (tick : TickMsg) (side : Side)
    (underlying : ℚ) (r : RiskStateMsg) (since : ℕ) (vs : VolSurfaceMsg) (tte theo : ℚ) (p : PlaceOrder) : Prop where
  enabled : turn.placesOrders = true
  unkilled : ∀ source reason, latest (Told.kill? source) told ≠ some (some reason)
  unpaused : latest Told.weekend? told ≠ some true
  heard : latest Told.price? told = some underlying
  positive : 0 < underlying
  window : |tick.strike - underlying| ≤ maxStrikeOffsetUsd
  call : sideChar tick.right = 'C' → underlying - atmTolUsd ≤ tick.strike
  put : sideChar tick.right = 'P' → tick.strike ≤ underlying + atmTolUsd
  risk : latest Told.risk? told = some (r, since)
  stamped : since ≠ 0
  fresh : seconds (turn.nowMonotonicNs - since) ≤ riskStateStaleS
  delta : |r.effectiveDelta| < setting told "delta_kill" asReal 5 - 1
  margin : r.marginPct < setting told "margin_ceiling_pct" asReal (1/2)
  long : side = .buy → r.effectiveDelta + 1 < setting told "delta_ceiling" asReal 3
  short : side = .sell → -setting told "delta_ceiling" asReal 3 < r.effectiveDelta - 1
  fitted : surfaceTold told tick.expiry (sideChar tick.right) = some vs
  drift : |underlying - vs.forward| ≤ maxForwardDriftTicks * setting told "tick_size" asReal (1/2000)
  years : quoting.timeToExpiryYears tick.expiry = some tte
  unexpired : 0 < tte
  priced : computeTheo quoting vs.forward tick.strike tte (sideChar tick.right) vs.params = some theo
  bid : ∃ bid ∈ tick.bid, 0 < bid
  ask : ∃ ask ∈ tick.ask, 0 < ask
  bidSize : ∃ size ∈ tick.bidSize, minBboSize ≤ size
  askSize : ∃ size ∈ tick.askSize, minBboSize ≤ size
  aimed : 0 < targetTold told theo side
  placed : p = ⟨turn.nowWallNs, tick.strike, tick.expiry, tick.right, side.asStr, 1,
    quantize (setting told "tick_size" asReal (1/2000)) (targetTold told theo side), "corsair_trader_rust"⟩

section Sent

variable {quoting : Quoting} {s : TraderState} {told : List Told}

theorem Standing.surfaceFor (standing : Standing told s) (expiry : String) (right : Char) :
    surfaceFor s.volSurfaces expiry right =
      (surfaceTold told expiry right).map fun vs => ⟨vs.forward, vs.params⟩ := by
  unfold Trader.surfaceFor surfaceTold
  simp only [standing.surfaces, Option.map_or]

theorem Standing.naiveTarget (standing : Standing told s) (theo : ℚ) (side : Side) :
    naiveTarget s theo side = targetTold told theo side := by
  have edge : minEdge s = edgeTold told := by
    unfold minEdge edgeTold
    rw [standing.minEdgeTicks, standing.tickSize]
  cases side with
  | buy => exact congrArg (theo - ·) edge
  | sell => exact congrArg (theo + ·) edge

theorem Standing.unkilled (standing : Standing told s) (none : s.kills.items = []) (source reason : String) :
    latest (Told.kill? source) told ≠ some (some reason) := by
  intro killed
  have held := standing.kills source
  rw [killed] at held
  have member := HashMap.mem_items.mpr held
  rw [none] at member
  cases member

theorem Standing.clear (standing : Standing told s) {now : ℕ} {eff : ℚ} (clear : Clear s now eff) :
    ∃ r since, latest Told.risk? told = some (r, since) ∧ r.effectiveDelta = eff ∧
      s.riskMarginPct = some r.marginPct ∧ s.riskStateAgeMonotonicNs = since := by
  obtain ⟨⟨r, since⟩, heard, known⟩ := Option.map_eq_some_iff.mp (standing.delta.symm.trans clear.received)
  refine ⟨r, since, heard, known, ?_, ?_⟩
  · rw [standing.margin, heard]
    rfl
  · rw [standing.age, heard]
    rfl

theorem decided_justified (standing : Standing told s) {turn : Turn} {tick : TickMsg} {d : Decision}
    (enabled : turn.placesOrders = true) (member : d ∈ decideOnTick quoting s tick turn.nowMonotonicNs) :
    ∃ underlying r since vs tte theo,
      Justified quoting told turn tick d.side underlying r since vs tte theo (placeFor tick turn d) := by
  have guarded := decideOnTick_guarded.1 d member
  obtain ⟨entry, tte, theo, lit, -⟩ := decideOnTick_quotable member
  have computed : theoFor quoting s tick = some theo := by
    simp only [theoFor, lit.fitted, lit.years, Option.bind_eq_bind, Option.bind_some]
    exact lit.priced
  obtain ⟨price, aimed⟩ := decided_price member computed
  rw [standing.naiveTarget] at price aimed
  have gates := lit.gates
  unfold quotable at gates
  simp only [decide_eq_true_eq] at gates
  have positive := gates.1
  rw [standing.price] at positive
  obtain ⟨underlying, heard, above⟩ := known_of_getD (lt_irrefl 0) positive
  have own : s.underlyingPrice = underlying := by
    rw [standing.price, Option.mem_def.mp heard]
    rfl
  have fitted := lit.fitted
  rw [standing.surfaceFor] at fitted
  obtain ⟨vs, told_surface, rfl⟩ := Option.map_eq_some_iff.mp fitted
  obtain ⟨eff, clear, long, short⟩ := guarded.risk
  obtain ⟨r, since, risk, rfl, margin, age⟩ := standing.clear clear
  refine ⟨underlying, r, since, vs, tte, theo, ?_⟩
  exact
    { enabled := enabled
      unkilled := standing.unkilled guarded.unkilled
      unpaused := by
        intro paused
        have weekend := standing.weekend.symm.trans guarded.unpaused
        rw [paused] at weekend
        cases weekend
      heard := heard
      positive := above
      window := own ▸ guarded.window
      call := own ▸ guarded.call
      put := own ▸ guarded.put
      risk := risk
      stamped := age ▸ clear.stamped
      fresh := age ▸ clear.fresh
      delta := standing.deltaKill ▸ clear.delta
      margin := standing.marginCeilingPct ▸ clear.margin _ margin
      long := standing.deltaCeiling ▸ long
      short := standing.deltaCeiling ▸ short
      fitted := told_surface
      drift := own ▸ standing.tickSize ▸ lit.drift
      years := lit.years
      unexpired := lit.unexpired
      priced := lit.priced
      bid := guarded.bid
      ask := guarded.ask
      bidSize := guarded.bidSize
      askSize := guarded.askSize
      aimed := aimed
      placed := by
        unfold placeFor
        rw [price, standing.tickSize] }

end Sent

-- Every order the trader sends, over any frames and loops before it.
theorem orders_justified (quoting : Quoting) (past : List (Turn × TraderInput)) (turn : Turn) (input : TraderInput)
    (p : PlaceOrder)
    (sent : .place p ∈ (traderStep quoting (after (traderStep quoting) .new past) (turn, input)).2) :
    ∃ body tick, input = .event body ∧ arrivalOf body = .tick tick ∧ ∃ side underlying r since vs tte theo,
      Justified quoting (past.filterMap toldOf) turn tick side underlying r since vs tte theo p := by
  obtain ⟨body, tick, event, arrival, ticked⟩ := place_answers sent
  refine ⟨body, tick, event, arrival, ?_⟩
  rw [ticked] at sent
  obtain ⟨d, decided, same, -⟩ := sent_places sent ⟨p, rfl, rfl⟩
  cases same
  have standing : Standing (past.filterMap toldOf) (after (traderStep quoting) .new past).bookless :=
    standing_bookless.mpr (run_stands past)
  have enabled : turn.placesOrders = true := by
    unfold onTick at sent
    dsimp only at sent
    split at sent
    · cases sent
    · rename_i enabled
      exact not_not.mp enabled
  exact ⟨d.side, decided_justified (standing_bookless.mp standing) enabled decided⟩

section Told

def underlyingBody : Body F64 := [("type", .str "underlying_tick"), ("price", .float (.finite 6))]

def surfaceBody : Body F64 :=
  [("type", .str "vol_surface"), ("expiry", .str "20260826"), ("side", .str "C"), ("forward", .float (.finite 6)),
    ("params", .map [("model", .str "svi"), ("a", .float (.finite (1/200))), ("b", .float (.finite (1/20))),
      ("rho", .float (.finite (-3/10))), ("m", .float (.finite 0)), ("sigma", .float (.finite (1/10)))])]

def riskBody : Body F64 :=
  [("type", .str "risk_state"), ("margin_usd", .float (.finite 0)), ("margin_pct", .float (.finite 0)),
    ("options_delta", .float (.finite 0)), ("hedge_delta", .int 0), ("effective_delta", .float (.finite 0)),
    ("theta", .float (.finite 0)), ("vega", .float (.finite 0)), ("gamma", .float (.finite 0)),
    ("total_contracts", .int 0), ("n_positions", .int 0)]

def killBody (kind : String) : Body F64 := [("type", .str kind), ("source", .str "risk"), ("reason", .str "limit")]

def toldInputs : List (Turn × TraderInput) :=
  [underlyingBody, surfaceBody, killBody "kill", riskBody, killBody "resume"].map fun body => (⟨1, 1, true⟩, .event body)

end Told

-- Killed and resumed, the trader sells the put at the surface of the calls.
theorem resumed_justified :
    .place (soldPut 2) ∈ (traderStep sviQuoting (after (traderStep sviQuoting) .new toldInputs) (putTicked 2 2)).2 ∧
      ∃ body tick, arrivalOf body = .tick tick ∧ ∃ side underlying r since vs tte theo,
        Justified sviQuoting (toldInputs.filterMap toldOf) (putTicked 2 2).1 tick side underlying r since vs tte theo
          (soldPut 2) := by
  have sent : .place (soldPut 2) ∈
      (traderStep sviQuoting (after (traderStep sviQuoting) .new toldInputs) (putTicked 2 2)).2 := by decide +kernel
  obtain ⟨body, tick, -, arrival, justified⟩ := orders_justified sviQuoting toldInputs _ _ (soldPut 2) sent
  exact ⟨sent, body, tick, arrival, justified⟩

end Corsair.Trader
