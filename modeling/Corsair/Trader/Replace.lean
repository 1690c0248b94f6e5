import Corsair.Lib.Fence
import Corsair.Trader.Main

namespace Corsair.Trader

open Wire

-- The quote a place is for.
def PlaceOrder.key (p : PlaceOrder) : OrderKey :=
  ⟨p.strike, p.expiry, sideChar p.right, if p.side = Side.buy.asStr then 'B' else 'S'⟩

def PlacesFor (key : OrderKey) (command : Command) : Prop := ∃ p, command = .place p ∧ p.key = key

def CancelsOrder (id : ℤ) (command : Command) : Prop := ∃ c, command = .cancel c ∧ c.orderId = id

instance (id : ℤ) (command : Command) : Decidable (CancelsOrder id command) :=
  match command with
  | .place _ => .isFalse (by simp [CancelsOrder])
  | .cancel c => decidable_of_iff (c.orderId = id) (by simp [CancelsOrder])

def Command.placeKey? : Command → Option OrderKey
  | .place p => some p.key
  | .cancel _ => none

def placeKeys (commands : List Command) : List OrderKey := commands.filterMap Command.placeKey?

theorem mem_placeKeys {commands : List Command} {key : OrderKey} :
    key ∈ placeKeys commands ↔ ∃ command ∈ commands, PlacesFor key command := by
  unfold placeKeys
  rw [List.mem_filterMap]
  constructor
  · intro given
    obtain ⟨command, member, own⟩ := given
    cases command with
    | place p => exact ⟨_, member, p, rfl, Option.some.inj own⟩
    | cancel c => cases own
  · intro given
    obtain ⟨command, member, p, rfl, own⟩ := given
    exact ⟨_, member, congrArg some own⟩

section Fences

variable {key : OrderKey} {id : ℤ} {rest : List Command}

theorem behind_place {p : PlaceOrder} (fenced : Fence.Fenced (CancelsOrder id) (PlacesFor key) (.place p :: rest)) :
    p.key ≠ key ∧ Fence.Fenced (CancelsOrder id) (PlacesFor key) rest := by
  have plain : ¬CancelsOrder id (.place p) := by
    intro cancels
    obtain ⟨c, different, -⟩ := cancels
    cases different
  obtain ⟨misses, behind⟩ := Fence.fenced_tail fenced plain
  exact ⟨fun own => misses ⟨p, rfl, own⟩, behind⟩

theorem behind_cancel {c : CancelOrder} (fenced : Fence.Fenced (CancelsOrder id) (PlacesFor key) (.cancel c :: rest))
    (other : c.orderId ≠ id) : Fence.Fenced (CancelsOrder id) (PlacesFor key) rest := by
  refine (Fence.fenced_tail fenced ?_).2
  intro cancels
  obtain ⟨_, same, own⟩ := cancels
  cases same
  exact other own

end Fences

-- The id the trader cancels when it quotes the key again.
def replaced (s : TraderState) (key : OrderKey) (nowMonotonicNs : ℕ) : Option ℤ :=
  (s.ourOrders.get key).bind (cancelOldOid · nowMonotonicNs)

-- An event that tells the trader of its own orders.
def IsAck : TraderInput → Prop
  | .event body => ∃ generic, decodeGeneric body = .ok generic ∧ generic.msgType ∈ ["place_ack", "order_ack"]
  | .stalenessLoop => False

section Decisions

variable {quoting : Quoting} {s : TraderState} {tick : TickMsg} {turn : Turn}

theorem decideSide_cancels {theo bid ask : ℚ} {gates : RiskGates} {now : ℕ} {side : Side} {d : Decision}
    (decided : decideSide s tick theo bid ask gates now side = some d) :
    d.side = side ∧ d.cancelOldOid = replaced s (orderKey tick side) now := by
  unfold decideSide at decided
  obtain ⟨target, -, gated⟩ := Option.bind_eq_some_iff.mp decided
  clear decided
  dsimp only at gated
  unfold replaced orderKey
  split_ifs at gated
  · cases gated
  · cases tracked : s.ourOrders.get ⟨tick.strike, tick.expiry, sideChar tick.right, side.asChar⟩ with
    | none =>
      rw [tracked] at gated
      obtain rfl := Option.some.inj gated
      exact ⟨rfl, rfl⟩
    | some existing =>
      rw [tracked] at gated
      dsimp only at gated
      split_ifs at gated
      · cases gated
      · obtain rfl := Option.some.inj gated
        exact ⟨rfl, rfl⟩

theorem decideOnTick_decides (now : ℕ) :
    ∃ decide : Side → Option Decision, (∀ side d, decide side = some d →
        d.side = side ∧ d.cancelOldOid = replaced s (orderKey tick side) now) ∧
      decideOnTick quoting s tick now = [.buy, .sell].filterMap decide := by
  have silent : ∃ decide : Side → Option Decision, (∀ side d, decide side = some d →
        d.side = side ∧ d.cancelOldOid = replaced s (orderKey tick side) now) ∧
      [] = [Side.buy, .sell].filterMap decide :=
    ⟨fun _ => none, fun _ _ given => (Option.some_ne_none _ given.symm).elim, rfl⟩
  unfold decideOnTick
  dsimp only
  split
  · exact silent
  · split
    · split
      · exact silent
      · split
        · exact silent
        · split
          · exact silent
          · split
            · exact silent
            · exact ⟨_, fun side d decided => decideSide_cancels decided, rfl⟩
    · exact silent

theorem decided_sides (now : ℕ) : ((decideOnTick quoting s tick now).map Decision.side).Nodup := by
  obtain ⟨decide, own, decided⟩ := @decideOnTick_decides quoting s tick now
  rw [decided]
  cases buy : decide .buy with
  | none => cases sell : decide .sell <;> simp [buy, sell]
  | some b => cases sell : decide .sell with
    | none => simp [buy, sell]
    | some d => simp [buy, sell, (own _ _ buy).1, (own _ _ sell).1]

theorem decided_cancels {now : ℕ} {d : Decision} (member : d ∈ decideOnTick quoting s tick now) :
    d.cancelOldOid = replaced s (orderKey tick d.side) now := by
  obtain ⟨decide, own, decided⟩ := @decideOnTick_decides quoting s tick now
  rw [decided] at member
  obtain ⟨side, -, made⟩ := List.mem_filterMap.mp member
  obtain ⟨rfl, cancels⟩ := own side d made
  exact cancels

theorem placeFor_key (d : Decision) : (placeFor tick turn d).key = orderKey tick d.side := by
  unfold PlaceOrder.key placeFor orderKey
  cases d.side <;> rfl

theorem orderKey_side {a b : Side} (same : orderKey tick a = orderKey tick b) : a = b := by
  cases a <;> cases b <;> simp_all [orderKey, Side.asChar]

end Decisions

-- What a turn of the trader sends: one place a quote at most, behind the cancel of
-- the order it replaces.
structure Sends (s : TraderState) (now : ℕ) (commands : List Command) : Prop where
  once : (placeKeys commands).Nodup
  behind : ∀ key id, replaced s key now = some id → Fence.Fenced (CancelsOrder id) (PlacesFor key) commands

section Turns

variable {quoting : Quoting} {s : TraderState} {turn : Turn}

theorem sends_none {commands : List Command} (unplaced : ∀ key, ∀ command ∈ commands, ¬PlacesFor key command)
    (now : ℕ) : Sends s now commands := by
  constructor
  · have none_kept : placeKeys commands = [] := by
      rw [List.eq_nil_iff_forall_not_mem]
      intro key member
      obtain ⟨command, held, places⟩ := mem_placeKeys.mp member
      exact unplaced key command held places
    rw [none_kept]
    exact List.nodup_nil
  · intro key id _
    exact Fence.fenced_clear (unplaced key)

theorem cancels_unplaced {α : Type} (xs : List α) (cancel : α → CancelOrder) (key : OrderKey) :
    ∀ command ∈ xs.map (fun x => Command.cancel (cancel x)), ¬PlacesFor key command := by
  intro command member places
  obtain ⟨x, -, rfl⟩ := List.mem_map.mp member
  obtain ⟨p, different, -⟩ := places
  cases different

theorem commandsFor_keys (tick : TickMsg) (decisions : List Decision) :
    placeKeys (decisions.flatMap (commandsFor tick turn)) = decisions.map (orderKey tick ·.side) := by
  induction decisions with
  | nil => rfl
  | cons d rest next =>
    have own : placeKeys (commandsFor tick turn d) = [orderKey tick d.side] := by
      rw [← placeFor_key]
      unfold placeKeys commandsFor
      cases d.cancelOldOid <;> rfl
    unfold placeKeys at *
    rw [List.flatMap_cons, List.filterMap_append, own, next]
    rfl

theorem commandsFor_fenced {tick : TickMsg} {key : OrderKey} {id : ℤ} {decisions : List Decision}
    (cancels : ∀ d ∈ decisions, orderKey tick d.side = key → d.cancelOldOid = some id) :
    Fence.Fenced (CancelsOrder id) (PlacesFor key) (decisions.flatMap (commandsFor tick turn)) := by
  induction decisions with
  | nil => trivial
  | cons d rest next =>
    rw [List.flatMap_cons, Fence.fenced_append]
    by_cases own : orderKey tick d.side = key
    · have first : commandsFor tick turn d = [.cancel ⟨turn.nowWallNs, id⟩, .place (placeFor tick turn d)] := by
        unfold commandsFor
        rw [cancels d List.mem_cons_self own]
        rfl
      rw [first]
      refine ⟨.inl ⟨_, rfl, rfl⟩, .inl ⟨_, List.mem_cons_self, _, rfl, rfl⟩⟩
    · refine ⟨Fence.fenced_clear ?_, .inr (next ?_)⟩
      · intro command member
        rcases List.mem_append.mp member with cancel | place
        · exact cancels_unplaced _ _ key command cancel
        · rw [List.mem_singleton.mp place]
          intro places
          obtain ⟨p, same, mine⟩ := places
          cases same
          exact own (placeFor_key d ▸ mine)
      · intro later member
        exact cancels later (List.mem_cons_of_mem _ member)

theorem onTick_sends (tick : TickMsg) : Sends s turn.nowMonotonicNs (onTick quoting turn s tick).2 := by
  unfold onTick
  dsimp only
  split
  · exact sends_none (fun _ _ absent => absurd absent List.not_mem_nil) _
  · constructor
    · rw [commandsFor_keys]
      have sides := @decided_sides quoting (recordTick s tick) tick turn.nowMonotonicNs
      have keyed : (((decideOnTick quoting (recordTick s tick) tick turn.nowMonotonicNs).map Decision.side).map
          (orderKey tick)).Nodup := sides.map fun _ _ => orderKey_side
      rwa [List.map_map] at keyed
    · intro key id replaces
      refine commandsFor_fenced ?_
      intro d member own
      rw [decided_cancels member, own]
      exact replaces

-- An event is a tick, or it sends nothing; and but for the acks it leaves the orders.
theorem processEvent_cases {body : Body F64} (apart : ¬IsAck (.event body)) :
    (∃ tick, processEvent quoting turn s body = onTick quoting turn s tick) ∨
      ((processEvent quoting turn s body).2 = [] ∧
        (processEvent quoting turn s body).1.ourOrders = s.ourOrders ∧
        (processEvent quoting turn s body).1.orderidToKey = s.orderidToKey) := by
  cases decoded : decodeGeneric body with
  | error e => exact .inr (by rw [processEvent_undecoded decoded]; exact ⟨rfl, rfl, rfl⟩)
  | ok generic =>
    have notAck : generic.msgType ∉ ["place_ack", "order_ack"] := fun ack => apart ⟨generic, decoded, ack⟩
    have effect := @processEvent_effect quoting turn s body generic decoded
    generalize generic.msgType = kind at notAck effect
    generalize processEvent quoting turn s body = result at effect ⊢
    cases effect with
    | ticked tick => exact .inl ⟨tick, rfl⟩
    | placeAck p => simp at notAck
    | orderAck a => simp at notAck
    | _ => exact .inr ⟨rfl, rfl, rfl⟩

theorem traderStep_sends {input : TraderInput} (apart : ¬IsAck input) :
    Sends s turn.nowMonotonicNs (traderStep quoting s (turn, input)).2 := by
  cases input with
  | event body =>
    rcases @processEvent_cases quoting s turn body apart with ticked | silent
    · obtain ⟨tick, ticked⟩ := ticked
      change Sends s turn.nowMonotonicNs (processEvent quoting turn s body).2
      rw [ticked]
      exact onTick_sends tick
    · change Sends s turn.nowMonotonicNs (processEvent quoting turn s body).2
      rw [silent.1]
      exact sends_none (fun _ _ absent => absurd absent List.not_mem_nil) _
  | stalenessLoop =>
    refine sends_none ?_ _
    intro key command member
    simp only [traderStep, stalenessCheck] at member
    split at member
    · cases member
    · exact cancels_unplaced _ _ key command member

end Turns

end Corsair.Trader
