import Corsair.Trader.Decision
import Corsair.Trader.Messages

namespace Corsair.Trader

open Wire

-- The clocks and the switch CORSAIR_TRADER_PLACES_ORDERS a turn of the trader reads.
structure Turn where
  nowMonotonicNs : ℕ
  nowWallNs : ℕ
  placesOrders : Bool

-- main.rs, on_tick. One command batch for a tick: each place after the cancel of
-- the order it replaces.
def placeFor (tick : TickMsg) (turn : Turn) (d : Decision) : PlaceOrder where
  tsNs := turn.nowWallNs
  strike := tick.strike
  expiry := tick.expiry
  right := tick.right
  side := d.side.asStr
  qty := 1
  price := d.price
  orderRef := "corsair_trader_rust"

def commandsFor (tick : TickMsg) (turn : Turn) (d : Decision) : List Command :=
  d.cancelOldOid.toList.map (fun oid => .cancel ⟨turn.nowWallNs, oid⟩) ++ [.place (placeFor tick turn d)]

def orderKey (tick : TickMsg) (side : Side) : OrderKey :=
  ⟨tick.strike, tick.expiry, sideChar tick.right, side.asChar⟩

def trackPlaced (tick : TickMsg) (turn : Turn) (s : TraderState) (d : Decision) : TraderState :=
  { s with
    orderidToKey := match d.cancelOldOid with
      | some oid => s.orderidToKey.remove oid
      | none => s.orderidToKey
    ourOrders := s.ourOrders.set (orderKey tick d.side) ⟨d.price, turn.nowMonotonicNs, none⟩ }

def recordTick (s : TraderState) (tick : TickMsg) : TraderState :=
  let latest : OptionState := ⟨tick.bid, tick.ask, tick.bidSize, tick.askSize⟩
  { s with options := s.options.set ⟨tick.strike, tick.expiry, sideChar tick.right⟩ latest }

def onTick (quoting : Quoting) (turn : Turn) (s : TraderState) (tick : TickMsg) : TraderState × List Command :=
  let ticked := recordTick s tick
  let decisions := decideOnTick quoting ticked tick turn.nowMonotonicNs
  if ¬turn.placesOrders then (ticked, [])
  else (decisions.foldl (trackPlaced tick turn) ticked, decisions.flatMap (commandsFor tick turn))

-- main.rs, staleness_check.
def marketDark (latest : OptionState) : Bool :=
  ¬latest.bid.any (0 < ·) ∨ ¬latest.ask.any (0 < ·) ∨ latest.bidSize.getD 0 ≤ 0 ∨ latest.askSize.getD 0 ≤ 0

def isStale (quoting : Quoting) (s : TraderState) (key : OrderKey) (order : OurOrder) : Bool :=
  match surfaceFor s.volSurfaces key.expiry key.right, quoting.timeToExpiryYears key.expiry with
  | some surface, some tte =>
    if tte ≤ 0 then false
    else match computeTheo quoting surface.forward key.strike tte key.right surface.params with
      | none => false
      | some theo =>
        let drift := if key.side = 'B' then order.price - theo else theo - order.price
        stalenessTicks * s.tickSize < drift ∨
          (s.options.get ⟨key.strike, key.expiry, key.right⟩).any marketDark
  | _, _ => false

-- An order whose id is not known yet is passed over.
def staleOrders (quoting : Quoting) (s : TraderState) : List (OrderKey × ℤ) :=
  s.ourOrders.items.filterMap fun entry =>
    if isStale quoting s entry.1 entry.2 then entry.2.orderId.map fun oid => (entry.1, oid) else none

def dropOrder (s : TraderState) (stale : OrderKey × ℤ) : TraderState :=
  { s with ourOrders := s.ourOrders.remove stale.1, orderidToKey := s.orderidToKey.remove stale.2 }

def stalenessCheck (quoting : Quoting) (turn : Turn) (s : TraderState) : TraderState × List Command :=
  if ¬turn.placesOrders then (s, [])
  else
    let cancels := staleOrders quoting s
    (cancels.foldl dropOrder s, cancels.map fun stale => .cancel ⟨turn.nowWallNs, stale.2⟩)

-- main.rs, process_event and its arms.
def takeVolSurface (s : TraderState) (vs : VolSurfaceMsg) : TraderState :=
  { s with volSurfaces := s.volSurfaces.set (vs.expiry, sideChar vs.side) ⟨vs.forward, vs.params⟩ }

def takeRiskState (turn : Turn) (s : TraderState) (r : RiskStateMsg) : TraderState :=
  { s with
    riskEffectiveDelta := some r.effectiveDelta
    riskMarginPct := some r.marginPct
    riskStateAgeMonotonicNs := turn.nowMonotonicNs }

def takePlaceAck (turn : Turn) (s : TraderState) (p : PlaceAckMsg) : TraderState :=
  let side? := match p.side with
    | "BUY" => some 'B'
    | "SELL" => some 'S'
    | _ => none
  match side? with
  | none => s
  | some side =>
    let key : OrderKey := ⟨p.strike, p.expiry, sideChar p.right, side⟩
    let order := match s.ourOrders.get key with
      | some o => { o with orderId := some p.orderId }
      | none => ⟨p.price, turn.nowMonotonicNs, some p.orderId⟩
    { s with ourOrders := s.ourOrders.set key order, orderidToKey := s.orderidToKey.set p.orderId key }

def terminalStatus (status : String) : Bool :=
  status ∈ ["Filled", "Cancelled", "ApiCancelled", "Inactive"]

def takeOrderAck (s : TraderState) (a : OrderAckMsg) : TraderState :=
  match a.orderId with
  | none => s
  | some oid =>
    if ¬terminalStatus (a.status.getD "") then s
    else match s.orderidToKey.get oid with
      | none => { s with orderidToKey := s.orderidToKey.remove oid }
      | some key =>
        { s with orderidToKey := s.orderidToKey.remove oid, ourOrders := s.ourOrders.remove key }

def takeHello (s : TraderState) (config : Body F64) : TraderState :=
  let number (name : String) (default : ℚ) : ℚ := ((find config name).bind asReal).getD default
  { s with
    minEdgeTicks := (((find config "min_edge_ticks").bind (asInt (-2^63) (2^63 - 1))).map
      fun v => (v + 2^31) % 2^32 - 2^31).getD s.minEdgeTicks
    tickSize := number "tick_size" s.tickSize
    deltaCeiling := number "delta_ceiling" s.deltaCeiling
    deltaKill := number "delta_kill" s.deltaKill
    marginCeilingPct := number "margin_ceiling_pct" s.marginCeilingPct }

def orElseKeep {α : Type} (s : TraderState) (decoded : Decoded α) (take : α → TraderState) : TraderState :=
  match decoded with
  | .ok a => take a
  | .error _ => s

-- A body that does not decode, or of a type not in the list, is ignored.
def processEvent (quoting : Quoting) (turn : Turn) (s : TraderState) (body : Body F64) : TraderState × List Command :=
  match decodeGeneric body with
  | .error _ => (s, [])
  | .ok generic => match generic.msgType with
    | "tick" => match decodeTick body generic.tsNs with
      | .ok tick => onTick quoting turn s tick
      | .error _ => (s, [])
    | "underlying_tick" =>
      (orElseKeep s (decodeUnderlyingTick body) fun price => { s with underlyingPrice := price }, [])
    | "vol_surface" => (orElseKeep s (decodeVolSurface body) (takeVolSurface s), [])
    | "risk_state" => (orElseKeep s (decodeRiskState body) (takeRiskState turn s), [])
    | "place_ack" => (orElseKeep s (decodePlaceAck body) (takePlaceAck turn s), [])
    | "order_ack" => (orElseKeep s (decodeOrderAck body) (takeOrderAck s), [])
    | "kill" =>
      ({ s with kills := s.kills.set (textField body "source" "?") (textField body "reason" "?") }, [])
    | "resume" => ({ s with kills := s.kills.remove (textField body "source" "?") }, [])
    | "weekend_pause" => ({ s with weekendPaused := ((find body "paused").bind asBool).getD false }, [])
    | "hello" => match (find body "config").bind asMap with
      | some config => (takeHello s config, [])
      | none => (s, [])
    | _ => (s, [])

-- The trader takes an event off the ring, or its 10 Hz loop comes round.
inductive TraderInput where
  | event (body : Body F64)
  | stalenessLoop

def traderStep (quoting : Quoting) (s : TraderState) (input : Turn × TraderInput) : TraderState × List Command :=
  match input.2 with
  | .event body => processEvent quoting input.1 s body
  | .stalenessLoop => stalenessCheck quoting input.1 s

-- All an event of a kind can do.
inductive Effect (quoting : Quoting) (turn : Turn) (s : TraderState) : String → TraderState × List Command → Prop where
  | ignored (kind : String) : Effect quoting turn s kind (s, [])
  | ticked (tick : TickMsg) : Effect quoting turn s "tick" (onTick quoting turn s tick)
  | underlying (price : ℚ) : Effect quoting turn s "underlying_tick" ({ s with underlyingPrice := price }, [])
  | surface (vs : VolSurfaceMsg) : Effect quoting turn s "vol_surface" (takeVolSurface s vs, [])
  | risk (r : RiskStateMsg) : Effect quoting turn s "risk_state" (takeRiskState turn s r, [])
  | placeAck (p : PlaceAckMsg) : Effect quoting turn s "place_ack" (takePlaceAck turn s p, [])
  | orderAck (a : OrderAckMsg) : Effect quoting turn s "order_ack" (takeOrderAck s a, [])
  | killed (source reason : String) :
      Effect quoting turn s "kill" ({ s with kills := s.kills.set source reason }, [])
  | resumed (source : String) : Effect quoting turn s "resume" ({ s with kills := s.kills.remove source }, [])
  | paused (weekend : Bool) : Effect quoting turn s "weekend_pause" ({ s with weekendPaused := weekend }, [])
  | hello (config : Body F64) : Effect quoting turn s "hello" (takeHello s config, [])

section Effects

variable {quoting : Quoting} {turn : Turn} {s : TraderState} {body : Body F64}

theorem orElseKeep_effect {α : Type} {kind : String} {take : α → TraderState}
    (taken : ∀ a, Effect quoting turn s kind (take a, [])) (decoded : Decoded α) :
    Effect quoting turn s kind (orElseKeep s decoded take, []) := by
  cases decoded with
  | ok a => exact taken a
  | error e => exact .ignored kind

theorem processEvent_undecoded {e : DecodeError} (failed : decodeGeneric body = .error e) :
    processEvent quoting turn s body = (s, []) := by
  unfold processEvent
  rw [failed]

theorem processEvent_effect {generic : GenericMsg} (decoded : decodeGeneric body = .ok generic) :
    Effect quoting turn s generic.msgType (processEvent quoting turn s body) := by
  unfold processEvent
  rw [decoded]
  dsimp only
  split
  all_goals rename_i kind
  · rw [kind]
    split
    · exact .ticked _
    · exact .ignored _
  · rw [kind]
    exact orElseKeep_effect .underlying _
  · rw [kind]
    exact orElseKeep_effect .surface _
  · rw [kind]
    exact orElseKeep_effect .risk _
  · rw [kind]
    exact orElseKeep_effect .placeAck _
  · rw [kind]
    exact orElseKeep_effect .orderAck _
  · rw [kind]
    exact .killed _ _
  · rw [kind]
    exact .resumed _
  · rw [kind]
    exact .paused _
  · rw [kind]
    split
    · exact .hello _
    · exact .ignored _
  · exact .ignored _

-- What the broker broadcasts to the trader, of which no tick and no acknowledgement changes
-- anything.
def TraderState.broadcasts (s : TraderState) : HashMap (String × Char) VolSurfaceEntry × Option ℚ × Option ℚ :=
  (s.volSurfaces, s.riskEffectiveDelta, s.riskMarginPct)

theorem onTick_broadcasts (tick : TickMsg) : (onTick quoting turn s tick).1.broadcasts = s.broadcasts := by
  unfold onTick
  dsimp only
  split
  · rfl
  · refine List.foldlRecOn (motive := fun t : TraderState => t.broadcasts = s.broadcasts) _ _ rfl ?_
    exact fun _ kept _ _ => kept

theorem stalenessCheck_broadcasts : (stalenessCheck quoting turn s).1.broadcasts = s.broadcasts := by
  unfold stalenessCheck
  split
  · rfl
  · refine List.foldlRecOn (motive := fun t : TraderState => t.broadcasts = s.broadcasts) _ _ rfl ?_
    exact fun _ kept _ _ => kept

theorem takePlaceAck_broadcasts (p : PlaceAckMsg) : (takePlaceAck turn s p).broadcasts = s.broadcasts := by
  unfold takePlaceAck
  simp only
  split <;> rfl

theorem takeOrderAck_broadcasts (a : OrderAckMsg) : (takeOrderAck s a).broadcasts = s.broadcasts := by
  unfold takeOrderAck
  split
  · rfl
  · split
    · rfl
    · split <;> rfl

end Effects

end Corsair.Trader
