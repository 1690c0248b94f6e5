import Corsair.Lib.Machine
import Corsair.Trader.Bookkeeping

namespace Corsair.Trader

open Wire

-- What an event is to the trader's own orders.
inductive Arrival where
  | tick (tick : TickMsg)
  | placeAck (ack : PlaceAckMsg)
  | orderAck (ack : OrderAckMsg)
  | other

def Arrival.ofDecoded {α : Type} (arrival : α → Arrival) (decoded : Decoded α) : Arrival :=
  match decoded with
  | .ok message => arrival message
  | .error _ => .other

def arrivalOf (body : Body F64) : Arrival :=
  match decodeGeneric body with
  | .error _ => .other
  | .ok generic => match generic.msgType with
    | "tick" => .ofDecoded .tick (decodeTick body generic.tsNs)
    | "place_ack" => .ofDecoded .placeAck (decodePlaceAck body)
    | "order_ack" => .ofDecoded .orderAck (decodeOrderAck body)
    | _ => .other

-- on_tick between its two turns at the lock.
structure PendingTick where
  tick : TickMsg
  turn : Turn
  decisions : List Decision

-- The trader's two tasks that write its orders, each with what it carries from one
-- turn at the lock to its next. The rest is history, which no code holds: the orders
-- there have been, which of them an id names, and which a key's record was made for.
structure Tasks where
  state : TraderState
  ticking : Option PendingTick
  dropping : Option (List (OrderKey × ℤ))
  placed : List OrderKey
  names : HashMap ℤ ℕ
  holder : HashMap OrderKey ℕ

def Tasks.start (state : TraderState) : Tasks where
  state := state
  ticking := none
  dropping := none
  placed := []
  names := ∅
  holder := ∅

-- One turn at the lock. A place_ack answers an order that is one of the placed, or
-- one the trader has no place of.
inductive TaskEvent where
  | received (turn : Turn) (body : Body F64) (order : ℕ)
  | tracked
  | scanned (turn : Turn)
  | dropped

-- A record that a terminal order_ack or a staleness cancel of `id` removed, the order
-- it was made for and the order of the id.
structure Removal where
  id : ℤ
  held : Option ℕ
  named : Option ℕ
  deriving DecidableEq

def Removal.Own (removal : Removal) : Prop :=
  ∃ order, removal.held = some order ∧ removal.named = some order

instance (side : String) : Decidable (Sided side) := inferInstanceAs (Decidable (_ ∨ _))

def gone (s next : TraderState) : List OrderKey :=
  (s.ourOrders.items.map Prod.fst).filter fun key => (next.ourOrders.get key).isNone

section Steps

variable (quoting : Quoting) (s : Tasks)

def Tasks.removals (next : TraderState) (id : ℤ) : List Removal :=
  (gone s.state next).map fun key => ⟨id, s.holder.get key, s.names.get id⟩

def beginTick (turn : Turn) (tick : TickMsg) : Tasks :=
  let state := recordTick s.state tick
  let decisions := decideOnTick quoting state tick turn.nowMonotonicNs
  { s with state, ticking := if decisions = [] ∨ ¬turn.placesOrders then none else some ⟨tick, turn, decisions⟩ }

def trackOne (p : PendingTick) (d : Decision) : Tasks :=
  { s with
    state := trackPlaced p.tick p.turn s.state d
    placed := s.placed ++ [orderKey p.tick d.side]
    holder := s.holder.set (orderKey p.tick d.side) s.placed.length }

def nameOrder (turn : Turn) (ack : PlaceAckMsg) (order : ℕ) : Tasks :=
  { s with
    state := takePlaceAck turn s.state ack
    placed := if order = s.placed.length then s.placed ++ [ack.key] else s.placed
    names := s.names.set ack.orderId order
    holder := if (s.state.ourOrders.get ack.key).isSome then s.holder else s.holder.set ack.key order }

def closeOrder (ack : OrderAckMsg) : Tasks × List Removal :=
  let state := takeOrderAck s.state ack
  ({ s with state }, ack.orderId.toList.flatMap (s.removals state))

def dropOne (stale : OrderKey × ℤ) : Tasks × List Removal :=
  let state := dropOrder s.state stale
  ({ s with state }, s.removals state stale.2)

-- The main loop takes no event while it is in on_tick.
def taskStep : TaskEvent → Tasks × List Removal
  | .received turn body order => match s.ticking, arrivalOf body with
    | some _, _ => (s, [])
    | none, .tick tick => (beginTick quoting s turn tick, [])
    | none, .placeAck ack => if Sided ack.side then (nameOrder s turn ack order, []) else (s, [])
    | none, .orderAck ack => closeOrder s ack
    | none, .other => ({ s with state := (processEvent quoting turn s.state body).1 }, [])
  | .tracked => match s.ticking with
    | none => (s, [])
    | some p => (p.decisions.foldl (trackOne · p) { s with ticking := none }, [])
  | .scanned turn => match s.dropping with
    | some _ => (s, [])
    | none => ({ s with dropping := if turn.placesOrders then some (staleOrders quoting s.state) else none }, [])
  | .dropped => match s.dropping with
    | none => (s, [])
    | some stale =>
      let loop := { s with dropping := none }
      (Machine.after dropOne loop stale, Machine.emitted dropOne loop stale)

end Steps

def Consistent (s : TraderState) : Prop :=
  ∀ id key, s.orderidToKey.get id = some key ↔ s.tracks key = some (some id)

-- The two maps agree, and a terminal order_ack removes no record but its order's.
structure RecordsOwn (s : Tasks) : Prop where
  consistent : Consistent s.state
  closing : ∀ ack, ∀ removal ∈ (closeOrder s ack).2, removal.Own

structure OrdersKept (quoting : Quoting) (start : Tasks) (events : List TaskEvent) : Prop where
  reached : ∀ past rest, events = past ++ rest → RecordsOwn (Machine.after (taskStep quoting) start past)
  own : ∀ removal ∈ Machine.emitted (taskStep quoting) start events, removal.Own

-- A record found stale is still that of its id, or it is gone.
def Current (s : Tasks) (entry : OrderKey × ℤ) : Prop :=
  s.state.tracks entry.1 = none ∨ s.state.tracks entry.1 = some (some entry.2)

-- The broker names an order once, by an id of its own.
def NamesNew (s : Tasks) (order : ℕ) : Arrival → Prop
  | .placeAck ack => s.names.get ack.orderId = none ∧ order ∉ s.names.values ∧
      (s.placed[order]? = some ack.key ∨ order = s.placed.length)
  | _ => True

def NamesOnce (s : Tasks) : TaskEvent → Prop
  | .received _ body order => s.ticking = none → NamesNew s order (arrivalOf body)
  | _ => True

def FindsOwn (s : Tasks) (order : ℕ) : Arrival → Prop
  | .placeAck ack => Sided ack.side → s.state.ourOrders.get ack.key = none ∨ s.holder.get ack.key = some order
  | _ => True

-- A place_ack finds the record of its order, or none; a quote replaces an order of
-- known id only with more than a second of its five left; and no record that was to
-- be dropped has given way to another.
def Orderly (s : Tasks) : TaskEvent → Prop
  | .received _ body order => s.ticking = none → FindsOwn s order (arrivalOf body)
  | .tracked => ∀ p ∈ s.ticking, ∀ d ∈ p.decisions,
      ∀ existing ∈ s.state.ourOrders.get (orderKey p.tick d.side), existing.orderId.isSome →
        cancelThresholdS < gtdLifetimeS - seconds (p.turn.nowMonotonicNs - existing.placeMonotonicNs)
  | .scanned _ => True
  | .dropped => ∀ stale ∈ s.dropping, ∀ entry ∈ stale, Current s entry

instance (s : Tasks) (entry : OrderKey × ℤ) : Decidable (Current s entry) := inferInstanceAs (Decidable (_ ∨ _))

instance (s : Tasks) (order : ℕ) (arrival : Arrival) : Decidable (NamesNew s order arrival) :=
  match arrival with
  | .placeAck _ => inferInstanceAs (Decidable (_ ∧ _ ∧ _))
  | .tick _ | .orderAck _ | .other => .isTrue trivial

instance (s : Tasks) (order : ℕ) (arrival : Arrival) : Decidable (FindsOwn s order arrival) :=
  match arrival with
  | .placeAck ack => inferInstanceAs (Decidable (Sided ack.side → _ ∨ _))
  | .tick _ | .orderAck _ | .other => .isTrue trivial

instance (s : Tasks) (e : TaskEvent) : Decidable (NamesOnce s e) :=
  match e with
  | .received _ body order => inferInstanceAs (Decidable (s.ticking = none → NamesNew s order (arrivalOf body)))
  | .tracked | .scanned _ | .dropped => .isTrue trivial

instance (s : Tasks) (e : TaskEvent) : Decidable (Orderly s e) :=
  match e with
  | .received _ body order => inferInstanceAs (Decidable (s.ticking = none → FindsOwn s order (arrivalOf body)))
  | .tracked => inferInstanceAs (Decidable (∀ p ∈ s.ticking, _))
  | .scanned _ => .isTrue trivial
  | .dropped => inferInstanceAs (Decidable (∀ stale ∈ s.dropping, _))

section Whole

variable {quoting : Quoting} {turn : Turn} {body : Body F64}

theorem arrivalOf_effect (s : TraderState) :
    match arrivalOf body with
    | .tick tick => processEvent quoting turn s body = onTick quoting turn s tick
    | .placeAck ack => processEvent quoting turn s body = (takePlaceAck turn s ack, [])
    | .orderAck ack => processEvent quoting turn s body = (takeOrderAck s ack, [])
    | .other => (processEvent quoting turn s body).1.ourOrders = s.ourOrders ∧
        (processEvent quoting turn s body).1.orderidToKey = s.orderidToKey := by
  cases decoded : decodeGeneric body with
  | error e =>
    have other : arrivalOf body = .other := by
      unfold arrivalOf
      rw [decoded]
    rw [other, processEvent_undecoded decoded]
    exact ⟨rfl, rfl⟩
  | ok generic =>
    by_cases known : generic.msgType ∈ ["tick", "place_ack", "order_ack"]
    · unfold arrivalOf processEvent
      rw [decoded]
      dsimp only
      simp only [List.mem_cons, List.not_mem_nil, or_false] at known
      rcases known with kind | kind | kind
      · rw [kind]
        cases decodeTick body generic.tsNs with
        | ok tick => rfl
        | error e => exact ⟨rfl, rfl⟩
      · rw [kind]
        cases decodePlaceAck body with
        | ok ack => rfl
        | error e => exact ⟨rfl, rfl⟩
      · rw [kind]
        cases decodeOrderAck body with
        | ok ack => rfl
        | error e => exact ⟨rfl, rfl⟩
    · have other : arrivalOf body = .other := by
        unfold arrivalOf
        rw [decoded]
        dsimp only
        split <;> simp_all
      have effect := @processEvent_effect quoting turn s body generic decoded
      rw [other]
      generalize generic.msgType = kind at known effect
      generalize processEvent quoting turn s body = result at effect ⊢
      cases effect with
      | ticked tick => simp at known
      | placeAck ack => simp at known
      | orderAck ack => simp at known
      | _ => exact ⟨rfl, rfl⟩

theorem takePlaceAck_unsided {ack : PlaceAckMsg} (unsided : ¬Sided ack.side) (s : TraderState) :
    takePlaceAck turn s ack = s := by
  obtain ⟨notBuy, notSell⟩ := not_or.mp unsided
  unfold takePlaceAck
  split
  · exact absurd ‹_› notBuy
  · exact absurd ‹_› notSell
  · rfl

theorem tracked_state (p : PendingTick) (decisions : List Decision) (s : Tasks) :
    (decisions.foldl (trackOne · p) s).state = decisions.foldl (trackPlaced p.tick p.turn) s.state := by
  induction decisions generalizing s with
  | nil => rfl
  | cons d rest next => exact next (trackOne s p d)

theorem dropped_state (stale : List (OrderKey × ℤ)) (s : Tasks) :
    (Machine.after dropOne s stale).state = stale.foldl dropOrder s.state := by
  induction stale generalizing s with
  | nil => rfl
  | cons first rest next => exact next (dropOne s first).1

-- With nothing between its turns at the lock a task does what it does in one.
theorem event_unbroken {s : Tasks} (idle : s.ticking = none) (order : ℕ) :
    (Machine.after (taskStep quoting) s [.received turn body order, .tracked]).state =
      (traderStep quoting s.state (turn, .event body)).1 := by
  have effect := @arrivalOf_effect quoting turn body s.state
  simp only [Machine.after, traderStep]
  cases arrival : arrivalOf body with
  | tick tick =>
    rw [arrival] at effect
    simp only [taskStep, idle, arrival, effect, beginTick, onTick]
    by_cases places : turn.placesOrders
    · cases decided : decideOnTick quoting (recordTick s.state tick) tick turn.nowMonotonicNs with
      | nil => simp [places]
      | cons d rest =>
        simp only [places, not_true_eq_false, or_false, reduceCtorEq, if_false]
        exact tracked_state ⟨tick, turn, d :: rest⟩ (d :: rest) _
    · simp [places]
  | placeAck ack =>
    rw [arrival] at effect
    simp only [taskStep, idle, arrival, effect]
    by_cases sided : Sided ack.side
    · simp [sided, nameOrder, idle]
    · simp [sided, idle, takePlaceAck_unsided sided]
  | orderAck ack =>
    rw [arrival] at effect
    simp [taskStep, idle, arrival, effect, closeOrder]
  | other => simp [taskStep, idle, arrival]

theorem staleness_unbroken {s : Tasks} (idle : s.dropping = none) :
    (Machine.after (taskStep quoting) s [.scanned turn, .dropped]).state =
      (traderStep quoting s.state (turn, .stalenessLoop)).1 := by
  simp only [Machine.after, traderStep, taskStep, idle, stalenessCheck]
  by_cases places : turn.placesOrders
  · simp [places, dropped_state]
  · simp [places]

end Whole

end Corsair.Trader
