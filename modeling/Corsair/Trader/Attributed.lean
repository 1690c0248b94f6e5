import Corsair.Daemon.CommandWire
import Corsair.Trader.Interleaved

namespace Corsair.Trader

open Wire

-- The order an id names is one placed for the key.
def Belongs (s : Tasks) (id : ℤ) (key : OrderKey) : Prop :=
  ∃ order, s.names.get id = some order ∧ s.placed[order]? = some key

theorem belongs_key {s : Tasks} {id : ℤ} {key other : OrderKey} (own : Belongs s id key) (also : Belongs s id other) :
    key = other := by
  obtain ⟨order, named, placed⟩ := own
  obtain ⟨same, names, places⟩ := also
  obtain rfl := Option.some.inj (named.symm.trans names)
  exact Option.some.inj (placed.symm.trans places)

-- A quote of the key cancels the order it replaces, if that has an id, and no order
-- of another key.
structure Replaceable (s : Tasks) (key : OrderKey) (cancels : Option ℤ) : Prop where
  covers : ∀ id, s.state.tracks key = some (some id) → cancels = some id
  own : ∀ id, cancels = some id → Belongs s id key

-- What on_tick decided of a key it would decide again.
structure Decided (s : Tasks) (p : PendingTick) (d : Decision) : Prop where
  current : ∀ existing ∈ s.state.ourOrders.get (orderKey p.tick d.side),
    d.cancelOldOid = cancelOldOid existing p.turn.nowMonotonicNs
  own : ∀ id, d.cancelOldOid = some id → Belongs s id (orderKey p.tick d.side)

structure Scanned (s : Tasks) (stale : List (OrderKey × ℤ)) : Prop where
  own : ∀ entry ∈ stale, Belongs s entry.2 entry.1
  once : (stale.map Prod.fst).Nodup

-- A record's id names the order the record was made for, and an order has one id. What
-- the tasks carry speaks of the records as they are.
structure Attributed (s : Tasks) : Prop where
  below : ∀ id order, s.names.get id = some order → order < s.placed.length
  single : ∀ id other order, s.names.get id = some order → s.names.get other = some order → id = other
  consistent : Consistent s.state
  owned : ∀ key id, s.state.tracks key = some (some id) →
    ∃ order, s.holder.get key = some order ∧ s.names.get id = some order
  keyed : ∀ key, s.state.tracks key ≠ none →
    ∃ order, s.holder.get key = some order ∧ s.placed[order]? = some key
  unnamed : ∀ key order, s.state.tracks key = some none → s.holder.get key = some order →
    ∀ id, s.names.get id ≠ some order
  ticking : ∀ p ∈ s.ticking, ∀ d ∈ p.decisions, Decided s p d
  dropping : ∀ stale ∈ s.dropping, Scanned s stale

section Kept

variable {s next : Tasks}

theorem placed_grows {placed more : List OrderKey} {order : ℕ} {key : OrderKey} (made : placed[order]? = some key) :
    (placed ++ more)[order]? = some key := by
  obtain ⟨within, -⟩ := List.getElem?_eq_some_iff.mp made
  rw [List.getElem?_append_left within]
  exact made

theorem belongs_grows (names : ∀ (id : ℤ) (order : ℕ), s.names.get id = some order → next.names.get id = some order)
    (placed : ∃ more, next.placed = s.placed ++ more) {id : ℤ} {key : OrderKey} (own : Belongs s id key) :
    Belongs next id key := by
  obtain ⟨order, named, made⟩ := own
  obtain ⟨more, longer⟩ := placed
  exact ⟨order, names id order named, longer ▸ placed_grows made⟩

theorem scanned_grows (names : ∀ (id : ℤ) (order : ℕ), s.names.get id = some order → next.names.get id = some order)
    (placed : ∃ more, next.placed = s.placed ++ more) {stale : List (OrderKey × ℤ)} (scanned : Scanned s stale) :
    Scanned next stale :=
  ⟨fun entry member => belongs_grows names placed (scanned.own entry member), scanned.once⟩

theorem tracked_belongs (held : Attributed s) {key : OrderKey} {id : ℤ}
    (tracked : s.state.tracks key = some (some id)) : Belongs s id key := by
  obtain ⟨order, holds, named⟩ := held.owned key id tracked
  obtain ⟨same, again, placed⟩ := held.keyed key (by rw [tracked]; exact Option.some_ne_none _)
  obtain rfl := Option.some.inj (holds.symm.trans again)
  exact ⟨order, named, placed⟩

-- A key's record goes or gives way to one without an id, and an id is forgotten.
theorem consistent_forgets {s next : TraderState} (consistent : Consistent s) {key : OrderKey} {forgets : Option ℤ}
    (ids : ∀ id, next.orderidToKey.get id = if forgets = some id then none else s.orderidToKey.get id)
    (others : ∀ other, other ≠ key → next.tracks other = s.tracks other)
    (unknown : ∀ id, next.tracks key ≠ some (some id))
    (covers : ∀ id, s.tracks key = some (some id) → forgets = some id)
    (own : ∀ id other, forgets = some id → s.tracks other = some (some id) → other = key) : Consistent next := by
  intro id other
  rw [ids]
  by_cases at_key : other = key
  · subst at_key
    refine ⟨fun mapped => ?_, fun tracked => absurd tracked (unknown id)⟩
    split at mapped
    · cases mapped
    · rename_i spared
      exact absurd (covers id ((consistent id other).mp mapped)) spared
  · rw [others other at_key]
    split
    · rename_i forgotten
      refine ⟨fun mapped => ?_, fun tracked => absurd (own id other forgotten tracked) at_key⟩
      cases mapped
    · exact consistent id other

theorem attributed_forgets (held : Attributed s) {key : OrderKey} {forgets : Option ℤ} (names : next.names = s.names)
    (placed : ∃ more, next.placed = s.placed ++ more)
    (ids : ∀ id, next.state.orderidToKey.get id = if forgets = some id then none else s.state.orderidToKey.get id)
    (others : ∀ other, other ≠ key →
      next.state.tracks other = s.state.tracks other ∧ next.holder.get other = s.holder.get other)
    (replaced : next.state.tracks key = none ∨ next.state.tracks key = some none ∧
      ∃ order, next.holder.get key = some order ∧ next.placed[order]? = some key ∧ ∀ id, s.names.get id ≠ some order)
    (ready : Replaceable s key forgets) (ticking : ∀ p ∈ next.ticking, ∀ d ∈ p.decisions, Decided next p d)
    (dropping : next.dropping = s.dropping) : Attributed next := by
  have unknown : ∀ id, next.state.tracks key ≠ some (some id) := by
    intro id tracked
    rcases replaced with none | ⟨unnamed, -⟩
    · rw [none] at tracked
      cases tracked
    · rw [unnamed] at tracked
      cases tracked
  have apart : ∀ {other : OrderKey} {id : ℤ}, next.state.tracks other = some (some id) → other ≠ key := by
    intro other id tracked same
    exact unknown id (same ▸ tracked)
  obtain ⟨more, longer⟩ := placed
  constructor
  · intro id order named
    rw [names] at named
    rw [longer, List.length_append]
    exact Nat.lt_of_lt_of_le (held.below id order named) (Nat.le_add_right _ _)
  · intro id other order
    rw [names]
    exact held.single id other order
  · refine consistent_forgets held.consistent ids (fun other away => (others other away).1) unknown ready.covers ?_
    intro id other forgotten tracked
    exact belongs_key (tracked_belongs held tracked) (ready.own id forgotten)
  · intro other id tracked
    obtain ⟨same, holder⟩ := others other (apart tracked)
    rw [holder, names]
    exact held.owned other id (same ▸ tracked)
  · intro other present
    by_cases at_key : other = key
    · subst at_key
      rcases replaced with none | ⟨-, order, holds, made, -⟩
      · exact absurd none present
      · exact ⟨order, holds, made⟩
    · obtain ⟨same, holder⟩ := others other at_key
      obtain ⟨order, holds, made⟩ := held.keyed other (same ▸ present)
      exact ⟨order, holder.trans holds, longer ▸ placed_grows made⟩
  · intro other order nameless holds id
    rw [names]
    by_cases at_key : other = key
    · subst at_key
      rcases replaced with none | ⟨-, own, holder, -, fresh⟩
      · cases none.symm.trans nameless
      · obtain rfl := Option.some.inj (holder.symm.trans holds)
        exact fresh id
    · obtain ⟨same, holder⟩ := others other at_key
      exact held.unnamed other order (same ▸ nameless) (holder ▸ holds) id
  · exact ticking
  · intro stale pending
    exact scanned_grows (fun id order named => names ▸ named) ⟨more, longer⟩ (held.dropping stale (dropping ▸ pending))

theorem attributed_unwritten (held : Attributed s) (orders : ∀ key, next.state.tracks key = s.state.tracks key)
    (ids : ∀ id, next.state.orderidToKey.get id = s.state.orderidToKey.get id) (placed : next.placed = s.placed)
    (names : next.names = s.names) (holder : next.holder = s.holder)
    (ticking : ∀ p ∈ next.ticking, ∀ d ∈ p.decisions, Decided next p d)
    (dropping : ∀ stale ∈ next.dropping, Scanned s stale) : Attributed next := by
  constructor
  · rw [names, placed]
    exact held.below
  · rw [names]
    exact held.single
  · intro id key
    rw [ids, orders]
    exact held.consistent id key
  · intro key id
    rw [orders, holder, names]
    exact held.owned key id
  · intro key
    rw [orders, holder, placed]
    exact held.keyed key
  · intro key
    rw [orders, holder, names]
    exact held.unnamed key
  · exact ticking
  · intro stale pending
    exact scanned_grows (fun id order named => names ▸ named) ⟨[], by rw [placed, List.append_nil]⟩
      (dropping stale pending)

theorem trackOne_attributed (held : Attributed s) (idle : s.ticking = none) {p : PendingTick} {d : Decision}
    (ready : Replaceable s (orderKey p.tick d.side) d.cancelOldOid) : Attributed (trackOne s p d) := by
  refine attributed_forgets held rfl ⟨_, rfl⟩ (fun id => trackPlaced_ids s.state d id)
    ?_ (.inr ⟨?_, s.placed.length, ?_, ?_, ?_⟩) ready ?_ rfl
  · intro other away
    constructor
    · exact (trackPlaced_tracks s.state d other).trans (if_neg away)
    · exact (HashMap.get_set _ _ _ _).trans (if_neg away)
  · exact (trackPlaced_tracks s.state d _).trans (if_pos rfl)
  · exact (HashMap.get_set _ _ _ _).trans (if_pos rfl)
  · exact List.getElem?_concat_length
  · intro id named
    exact Nat.lt_irrefl _ (held.below id _ named)
  · intro later pending
    cases idle.symm.trans pending

theorem trackOne_replaceable {p : PendingTick} {d : Decision} {key : OrderKey} {cancels : Option ℤ}
    (ready : Replaceable s key cancels) : Replaceable (trackOne s p d) key cancels := by
  constructor
  · intro id tracked
    have was : (trackPlaced p.tick p.turn s.state d).tracks key = some (some id) := tracked
    rw [trackPlaced_tracks] at was
    split at was
    · cases was
    · exact ready.covers id was
  · intro id cancelled
    exact @belongs_grows s (trackOne s p d) (fun _ _ named => named) ⟨_, rfl⟩ _ _ (ready.own id cancelled)

theorem tracked_attributed {p : PendingTick} {decisions : List Decision} (held : Attributed s)
    (idle : s.ticking = none) (ready : ∀ d ∈ decisions, Replaceable s (orderKey p.tick d.side) d.cancelOldOid) :
    Attributed (decisions.foldl (trackOne · p) s) := by
  induction decisions generalizing s with
  | nil => exact held
  | cons d rest next =>
    refine next (trackOne_attributed held idle (ready d List.mem_cons_self)) idle fun later member => ?_
    exact trackOne_replaceable (ready later (List.mem_cons_of_mem _ member))

theorem tracks_found {s : TraderState} {key : OrderKey} {existing : OurOrder}
    (found : s.ourOrders.get key = some existing) : s.tracks key = some existing.orderId := by
  unfold TraderState.tracks
  rw [found]
  rfl

theorem beginTick_attributed (held : Attributed s) (quoting : Quoting) (turn : Turn) (tick : TickMsg) :
    Attributed (beginTick quoting s turn tick) := by
  refine attributed_unwritten held (fun _ => rfl) (fun _ => rfl) rfl rfl rfl ?_ held.dropping
  intro p pending d decided
  simp only [beginTick] at pending
  split at pending
  · cases pending
  · obtain rfl := Option.some.inj pending
    have cancels : d.cancelOldOid = replaced s.state (orderKey tick d.side) turn.nowMonotonicNs := decided_cancels decided
    constructor
    · intro existing found
      rw [cancels]
      unfold replaced
      rw [show s.state.ourOrders.get (orderKey tick d.side) = some existing from found]
      rfl
    · intro id cancelled
      rw [cancels] at cancelled
      obtain ⟨existing, found, known⟩ := Option.bind_eq_some_iff.mp cancelled
      unfold cancelOldOid at known
      split at known
      · exact tracked_belongs held ((tracks_found found).trans (congrArg some known))
      · cases known

theorem decided_replaceable {p : PendingTick} {d : Decision} (decided : Decided s p d)
    (fresh : ∀ existing ∈ s.state.ourOrders.get (orderKey p.tick d.side), existing.orderId.isSome →
      cancelThresholdS < gtdLifetimeS - seconds (p.turn.nowMonotonicNs - existing.placeMonotonicNs)) :
    Replaceable s (orderKey p.tick d.side) d.cancelOldOid := by
  refine ⟨fun id tracked => ?_, decided.own⟩
  obtain ⟨existing, found, known⟩ := Option.map_eq_some_iff.mp tracked
  rw [decided.current existing found]
  unfold cancelOldOid
  rw [if_pos (fresh existing found (by rw [known]; rfl))]
  exact known

theorem mem_gone {s next : TraderState} {key : OrderKey} :
    key ∈ gone s next ↔ s.tracks key ≠ none ∧ next.tracks key = none := by
  unfold gone TraderState.tracks
  rw [List.mem_filter, List.mem_map]
  constructor
  · intro given
    obtain ⟨⟨⟨_, order⟩, member, rfl⟩, went⟩ := given
    rw [HashMap.mem_items.mp member]
    exact ⟨Option.some_ne_none _, Option.map_eq_none_iff.mpr (Option.isNone_iff_eq_none.mp went)⟩
  · intro given
    obtain ⟨present, went⟩ := given
    obtain ⟨order, found⟩ := Option.ne_none_iff_exists'.mp fun absent => present (Option.map_eq_none_iff.mpr absent)
    exact ⟨⟨_, HashMap.mem_items.mpr found, rfl⟩, Option.isNone_iff_eq_none.mpr (Option.map_eq_none_iff.mp went)⟩

theorem removals_own (held : Attributed s) {after : TraderState} {id : ℤ}
    (only : ∀ key, s.state.tracks key ≠ none → after.tracks key = none → s.state.tracks key = some (some id)) :
    ∀ removal ∈ s.removals after id, removal.Own := by
  intro removal member
  obtain ⟨key, went, rfl⟩ := List.mem_map.mp member
  obtain ⟨present, absent⟩ := mem_gone.mp went
  exact held.owned key id (only key present absent)

structure Droppable (s : Tasks) (entry : OrderKey × ℤ) : Prop where
  own : Belongs s entry.2 entry.1
  current : Current s entry

theorem dropOne_attributed (held : Attributed s) {entry : OrderKey × ℤ} (droppable : Droppable s entry) :
    Attributed (dropOne s entry).1 := by
  refine @attributed_forgets s (dropOne s entry).1 held entry.1 (some entry.2) rfl ⟨[], (List.append_nil _).symm⟩ ?_ ?_
    (.inl ((dropOrder_tracks s.state entry entry.1).trans (if_pos rfl))) ?_ ?_ rfl
  · intro id
    simp only [dropOne, dropOrder, HashMap.get_remove, Option.some.injEq, eq_comm]
  · intro other away
    exact ⟨(dropOrder_tracks s.state entry other).trans (if_neg away), rfl⟩
  · constructor
    · intro id tracked
      rcases droppable.current with none | own
      · rw [none] at tracked
        cases tracked
      · exact Option.some.inj (own.symm.trans tracked)
    · intro id same
      exact Option.some.inj same ▸ droppable.own
  · intro p pending d decided
    have was := held.ticking p pending d decided
    refine ⟨fun existing found => was.current existing ?_, was.own⟩
    have left : (s.state.ourOrders.remove entry.1).get (orderKey p.tick d.side) = some existing := found
    rw [HashMap.get_remove] at left
    split at left
    · cases left
    · exact left

theorem named_record (held : Attributed s) {key : OrderKey} {id : ℤ} {order : ℕ} (present : s.state.tracks key ≠ none)
    (holds : s.holder.get key = some order) (named : s.names.get id = some order) :
    s.state.tracks key = some (some id) := by
  cases tracked : s.state.tracks key with
  | none => exact absurd tracked present
  | some known =>
    cases known with
    | none => exact absurd named (held.unnamed key order tracked holds id)
    | some other =>
      obtain ⟨same, again, also⟩ := held.owned key other tracked
      obtain rfl := Option.some.inj (holds.symm.trans again)
      rw [held.single other id order also named]

theorem dropOne_own_iff (held : Attributed s) (entry : OrderKey × ℤ) :
    (∀ removal ∈ (dropOne s entry).2, removal.Own) ↔ Current s entry := by
  constructor
  · intro own
    by_cases present : s.state.tracks entry.1 = none
    · exact .inl present
    · right
      have went : entry.1 ∈ gone s.state (dropOrder s.state entry) :=
        mem_gone.mpr ⟨present, (dropOrder_tracks s.state entry entry.1).trans (if_pos rfl)⟩
      obtain ⟨order, holds, named⟩ := own _ (List.mem_map.mpr ⟨entry.1, went, rfl⟩)
      exact named_record held present holds named
  · intro current
    refine removals_own held fun key present absent => ?_
    rw [dropOrder_tracks] at absent
    split at absent
    · rename_i same
      subst same
      exact current.resolve_left present
    · exact absurd absent present

theorem dropOne_droppable {entry other : OrderKey × ℤ} (droppable : Droppable s other) :
    Droppable (dropOne s entry).1 other := by
  refine ⟨droppable.own, ?_⟩
  unfold Current
  change (dropOrder s.state entry).tracks other.1 = none ∨ (dropOrder s.state entry).tracks other.1 = _
  rw [dropOrder_tracks]
  split
  · exact .inl rfl
  · exact droppable.current

theorem dropped_along {stale : List (OrderKey × ℤ)} (droppable : ∀ entry ∈ stale, Droppable s entry) :
    Machine.Along dropOne Droppable s stale := by
  induction stale generalizing s with
  | nil => trivial
  | cons first rest next =>
    refine ⟨droppable first List.mem_cons_self, next fun entry member => ?_⟩
    exact dropOne_droppable (droppable entry (List.mem_cons_of_mem _ member))

theorem dropped_attributed {stale : List (OrderKey × ℤ)} (held : Attributed s) (scanned : Scanned s stale)
    (current : ∀ entry ∈ stale, Current s entry) : Attributed (Machine.after dropOne s stale) :=
  Machine.reached Attributed (fun _ _ droppable held => dropOne_attributed held droppable) held
    (dropped_along fun entry member => ⟨scanned.own entry member, current entry member⟩)

theorem dropped_own_iff {stale : List (OrderKey × ℤ)} (held : Attributed s) (scanned : Scanned s stale) :
    (∀ removal ∈ Machine.emitted dropOne s stale, removal.Own) ↔ ∀ entry ∈ stale, Current s entry := by
  induction stale generalizing s with
  | nil => simp [Machine.emitted]
  | cons first rest next =>
    obtain ⟨own, once⟩ := scanned
    obtain ⟨apart, later⟩ := List.nodup_cons.mp once
    rw [Machine.emitted, List.forall_mem_append, dropOne_own_iff held, List.forall_mem_cons]
    refine and_congr_right fun current => ?_
    have dropped := dropOne_attributed held ⟨own first List.mem_cons_self, current⟩
    rw [next dropped ⟨fun entry member => own entry (List.mem_cons_of_mem _ member), later⟩]
    refine forall₂_congr fun entry member => ?_
    have away : entry.1 ≠ first.1 := fun same => apart (same ▸ List.mem_map_of_mem member)
    have kept : (dropOne s first).1.state.tracks entry.1 = s.state.tracks entry.1 :=
      (dropOrder_tracks s.state first entry.1).trans (if_neg away)
    unfold Current
    rw [kept]

-- A terminal ack of a mapped id drops the record the id is mapped to.
theorem closeOrder_attributed (held : Attributed s) (ack : OrderAckMsg) :
    Attributed (closeOrder s ack).1 ∧ ∀ removal ∈ (closeOrder s ack).2, removal.Own := by
  unfold closeOrder
  dsimp only
  rcases @takeOrderAck_cases s.state ack with same | ⟨id, known, terminal, ⟨unmapped, written⟩ | ⟨key, mapped, written⟩⟩
  · rw [same]
    refine ⟨held, fun removal member => ?_⟩
    obtain ⟨id, -, removed⟩ := List.mem_flatMap.mp member
    exact removals_own held (fun key present absent => absurd absent present) removal removed
  · rw [written, known]
    constructor
    · refine attributed_unwritten held (fun _ => rfl) (fun other => ?_) rfl rfl rfl ?_ held.dropping
      · rw [HashMap.get_remove]
        split
        · rename_i same
          rw [same, unmapped]
        · rfl
      · intro p pending d decided
        obtain ⟨current, own⟩ := held.ticking p pending d decided
        exact ⟨current, own⟩
    · intro removal member
      obtain ⟨_, -, removed⟩ := List.mem_flatMap.mp member
      exact removals_own held (fun key present absent => absurd absent present) removal removed
  · have tracked : s.state.tracks key = some (some id) := (held.consistent id key).mp mapped
    have dropped : takeOrderAck s.state ack = dropOrder s.state (key, id) := written
    rw [dropped, known]
    refine ⟨dropOne_attributed held ⟨tracked_belongs held tracked, .inr tracked⟩, fun removal member => ?_⟩
    obtain ⟨_, only, removed⟩ := List.mem_flatMap.mp member
    obtain rfl := Option.mem_some.mp (Option.mem_toList.mp only)
    exact (dropOne_own_iff held (key, id)).mpr (.inr tracked) removal removed

theorem records_own (held : Attributed s) : RecordsOwn s :=
  ⟨held.consistent, fun ack => (closeOrder_attributed held ack).2⟩

section Naming

variable {ack : PlaceAckMsg} {order : ℕ} {turn : Turn}

theorem nameOrder_tracks (sided : Sided ack.side) (key : OrderKey) :
    (nameOrder s turn ack order).state.tracks key =
      if key = ack.key then some (some ack.orderId) else s.state.tracks key :=
  takePlaceAck_tracks sided turn key

theorem nameOrder_ids (sided : Sided ack.side) (id : ℤ) :
    (nameOrder s turn ack order).state.orderidToKey.get id =
      if id = ack.orderId then some ack.key else s.state.orderidToKey.get id :=
  takePlaceAck_ids sided turn id

theorem nameOrder_names (id : ℤ) :
    (nameOrder s turn ack order).names.get id = if id = ack.orderId then some order else s.names.get id :=
  HashMap.get_set _ _ _ _

theorem nameOrder_placed : ∃ more, (nameOrder s turn ack order).placed = s.placed ++ more := by
  unfold nameOrder
  dsimp only
  split
  · exact ⟨_, rfl⟩
  · exact ⟨[], (List.append_nil _).symm⟩

theorem nameOrder_made (known : s.placed[order]? = some ack.key ∨ order = s.placed.length) :
    (nameOrder s turn ack order).placed[order]? = some ack.key := by
  rcases known with placed | foreign
  · obtain ⟨more, longer⟩ := @nameOrder_placed s ack order turn
    rw [longer]
    exact placed_grows placed
  · simp only [nameOrder, foreign, if_true]
    exact List.getElem?_concat_length

theorem nameOrder_holds (finds : s.state.ourOrders.get ack.key = none ∨ s.holder.get ack.key = some order) :
    (nameOrder s turn ack order).holder.get ack.key = some order := by
  unfold nameOrder
  dsimp only
  split
  · rename_i present
    refine finds.resolve_left fun absent => ?_
    rw [absent] at present
    cases present
  · exact (HashMap.get_set _ _ _ _).trans (if_pos rfl)

theorem nameOrder_others {key : OrderKey} (away : key ≠ ack.key) :
    (nameOrder s turn ack order).holder.get key = s.holder.get key := by
  unfold nameOrder
  dsimp only
  split
  · rfl
  · exact (HashMap.get_set _ _ _ _).trans (if_neg away)

theorem unused_untracked (held : Attributed s) (unused : s.names.get ack.orderId = none) (key : OrderKey) :
    s.state.tracks key ≠ some (some ack.orderId) := by
  intro tracked
  obtain ⟨other, -, named⟩ := held.owned key ack.orderId tracked
  cases unused.symm.trans named

-- The record the ack finds has no id so far, as that would name the order again.
theorem unnamed_untracked (held : Attributed s) (unnamed : order ∉ s.names.values)
    (finds : s.state.ourOrders.get ack.key = none ∨ s.holder.get ack.key = some order) (id : ℤ) :
    s.state.tracks ack.key ≠ some (some id) := by
  intro tracked
  obtain ⟨existing, found, -⟩ := Option.map_eq_some_iff.mp tracked
  obtain ⟨other, holder, named⟩ := held.owned ack.key id tracked
  have own := finds.resolve_left fun absent => by cases absent.symm.trans found
  obtain rfl := Option.some.inj (holder.symm.trans own)
  exact unnamed (HashMap.mem_values.mpr ⟨id, named⟩)

theorem nameOrder_consistent (held : Attributed s) (sided : Sided ack.side) (unused : s.names.get ack.orderId = none)
    (unnamed : order ∉ s.names.values)
    (finds : s.state.ourOrders.get ack.key = none ∨ s.holder.get ack.key = some order) :
    Consistent (nameOrder s turn ack order).state := by
  intro id key
  rw [nameOrder_ids sided, nameOrder_tracks sided]
  by_cases own : id = ack.orderId
  · subst own
    rw [if_pos rfl]
    by_cases at_key : key = ack.key
    · simp [at_key]
    · rw [if_neg at_key]
      refine ⟨fun same => absurd (Option.some.inj same).symm at_key, fun tracked => ?_⟩
      exact absurd tracked (unused_untracked held unused key)
  · rw [if_neg own]
    by_cases at_key : key = ack.key
    · subst at_key
      rw [if_pos rfl]
      constructor
      · intro mapped
        exact absurd ((held.consistent id ack.key).mp mapped) (unnamed_untracked held unnamed finds id)
      · intro same
        exact absurd (Option.some.inj (Option.some.inj same)).symm own
    · rw [if_neg at_key]
      exact held.consistent id key

theorem nameOrder_attributed (held : Attributed s) (idle : s.ticking = none) (sided : Sided ack.side)
    (unused : s.names.get ack.orderId = none) (unnamed : order ∉ s.names.values)
    (known : s.placed[order]? = some ack.key ∨ order = s.placed.length)
    (finds : s.state.ourOrders.get ack.key = none ∨ s.holder.get ack.key = some order) :
    Attributed (nameOrder s turn ack order) := by
  have made := @nameOrder_made s ack order turn known
  have holds := @nameOrder_holds s ack order turn finds
  obtain ⟨more, longer⟩ := @nameOrder_placed s ack order turn
  have kept : ∀ {id : ℤ} {other : ℕ}, s.names.get id = some other → id ≠ ack.orderId := by
    rintro id other named rfl
    cases unused.symm.trans named
  constructor
  case consistent => exact nameOrder_consistent held sided unused unnamed finds
  case below =>
    intro id other named
    rw [nameOrder_names] at named
    split at named
    · obtain rfl := Option.some.inj named
      exact (List.getElem?_eq_some_iff.mp made).1
    · rw [longer, List.length_append]
      exact Nat.lt_of_lt_of_le (held.below id other named) (Nat.le_add_right _ _)
  case single =>
    intro id also other named again
    rw [nameOrder_names] at named again
    split at named
    · split at again
      · simp_all
      · obtain rfl := Option.some.inj named
        exact absurd (HashMap.mem_values.mpr ⟨also, again⟩) unnamed
    · split at again
      · obtain rfl := Option.some.inj again
        exact absurd (HashMap.mem_values.mpr ⟨id, named⟩) unnamed
      · exact held.single id also other named again
  case owned =>
    intro key id tracked
    rw [nameOrder_tracks sided] at tracked
    rw [nameOrder_names]
    split at tracked
    · rename_i same
      obtain rfl := Option.some.inj (Option.some.inj tracked)
      rw [same, if_pos rfl]
      exact ⟨order, holds, rfl⟩
    · rename_i away
      obtain ⟨other, holder, named⟩ := held.owned key id tracked
      rw [nameOrder_others away, if_neg (kept named)]
      exact ⟨other, holder, named⟩
  case keyed =>
    intro key present
    by_cases at_key : key = ack.key
    · exact ⟨order, at_key ▸ holds, at_key ▸ made⟩
    · rw [nameOrder_tracks sided, if_neg at_key] at present
      obtain ⟨other, holder, placed⟩ := held.keyed key present
      exact ⟨other, (nameOrder_others at_key).trans holder, longer ▸ placed_grows placed⟩
  case unnamed =>
    intro key other nameless holder id
    rw [nameOrder_tracks sided] at nameless
    split at nameless
    · cases nameless
    · rename_i away
      rw [nameOrder_others away] at holder
      rw [nameOrder_names]
      split
      · -- the order the ack names is one of the ack's key
        intro same
        obtain rfl := Option.some.inj same
        obtain ⟨_, again, placed⟩ := held.keyed key (by rw [nameless]; exact Option.some_ne_none _)
        obtain rfl := Option.some.inj (holder.symm.trans again)
        have there : (nameOrder s turn ack order).placed[order]? = some key := longer ▸ placed_grows placed
        exact away (Option.some.inj (there.symm.trans made))
      · exact held.unnamed key other nameless holder id
  case ticking =>
    intro p pending
    cases idle.symm.trans pending
  case dropping =>
    intro stale pending
    refine scanned_grows (fun id other named => ?_) ⟨more, longer⟩ (held.dropping stale pending)
    rw [nameOrder_names, if_neg (kept named)]
    exact named

end Naming

theorem attributed_dropping (held : Attributed s) {dropping : Option (List (OrderKey × ℤ))}
    (scanned : ∀ stale ∈ dropping, Scanned s stale) : Attributed { s with dropping } := by
  refine attributed_unwritten held (fun _ => rfl) (fun _ => rfl) rfl rfl rfl ?_ scanned
  intro p ticks d decided
  obtain ⟨current, own⟩ := held.ticking p ticks d decided
  exact ⟨current, own⟩

theorem loop_attributed (held : Attributed s) : Attributed { s with dropping := none } := by
  apply attributed_dropping held
  intro stale pending
  cases pending

theorem received_attributed (held : Attributed s) (idle : s.ticking = none) {quoting : Quoting} {turn : Turn}
    {body : Body F64} {order : ℕ} (new : NamesNew s order (arrivalOf body)) (finds : FindsOwn s order (arrivalOf body)) :
    Attributed (taskStep quoting s (.received turn body order)).1 ∧
      ∀ removal ∈ (taskStep quoting s (.received turn body order)).2, removal.Own := by
  have effect := @arrivalOf_effect quoting turn body s.state
  cases arrival : arrivalOf body with
  | tick tick =>
    simp only [taskStep, idle, arrival]
    exact ⟨beginTick_attributed held quoting turn tick, List.forall_mem_nil _⟩
  | placeAck ack =>
    rw [arrival] at finds new
    simp only [taskStep, idle, arrival]
    by_cases sided : Sided ack.side
    · rw [if_pos sided]
      obtain ⟨unused, unnamed, known⟩ := new
      exact ⟨nameOrder_attributed held idle sided unused unnamed known (finds sided), List.forall_mem_nil _⟩
    · rw [if_neg sided]
      exact ⟨held, List.forall_mem_nil _⟩
  | orderAck ack =>
    simp only [taskStep, idle, arrival]
    exact closeOrder_attributed held ack
  | other =>
    rw [arrival] at effect
    obtain ⟨orders, ids⟩ := effect
    simp only [taskStep, idle, arrival]
    refine ⟨attributed_unwritten held ?_ ?_ rfl rfl rfl ?_ held.dropping, List.forall_mem_nil _⟩
    · intro key
      unfold TraderState.tracks
      rw [orders]
    · intro id
      rw [ids]
    · intro p pending
      cases pending

theorem scanned_attributed (held : Attributed s) (quoting : Quoting) (places : Bool) :
    Attributed { s with dropping := if places then some (staleOrders quoting s.state) else none } := by
  apply attributed_dropping held
  intro stale scanned
  split at scanned
  · obtain rfl := Option.some.inj scanned
    exact ⟨fun entry member => tracked_belongs held (staleOrders_tracked member), staleOrders_once quoting s.state⟩
  · cases scanned

theorem attributed_step (held : Attributed s) {quoting : Quoting} {e : TaskEvent} (once : NamesOnce s e)
    (orderly : Orderly s e) :
    Attributed (taskStep quoting s e).1 ∧ ∀ removal ∈ (taskStep quoting s e).2, removal.Own := by
  cases e with
  | received turn body order =>
    cases busy : s.ticking with
    | some p =>
      simp only [taskStep, busy]
      exact ⟨held, List.forall_mem_nil _⟩
    | none => exact received_attributed held busy (once busy) (orderly busy)
  | tracked =>
    cases pending : s.ticking with
    | none =>
      simp only [taskStep, pending]
      exact ⟨held, List.forall_mem_nil _⟩
    | some p =>
      simp only [taskStep, pending]
      have released : Attributed { s with ticking := none } := by
        refine attributed_unwritten held (fun _ => rfl) (fun _ => rfl) rfl rfl rfl ?_ held.dropping
        intro _ ticks
        cases ticks
      refine ⟨tracked_attributed released rfl fun d decided => ?_, List.forall_mem_nil _⟩
      obtain ⟨covers, own⟩ := decided_replaceable (held.ticking p pending d decided) (orderly p pending d decided)
      exact ⟨covers, own⟩
  | scanned turn =>
    cases pending : s.dropping with
    | some stale =>
      simp only [taskStep, pending]
      exact ⟨held, List.forall_mem_nil _⟩
    | none =>
      simp only [taskStep, pending]
      exact ⟨scanned_attributed held quoting turn.placesOrders, List.forall_mem_nil _⟩
  | dropped =>
    cases pending : s.dropping with
    | none =>
      simp only [taskStep, pending]
      exact ⟨held, List.forall_mem_nil _⟩
    | some stale =>
      simp only [taskStep, pending]
      obtain ⟨own, once⟩ := held.dropping stale pending
      have current := orderly stale pending
      exact ⟨dropped_attributed (loop_attributed held) ⟨own, once⟩ current,
        (dropped_own_iff (loop_attributed held) ⟨own, once⟩).mpr current⟩

section Broken

-- A terminal ack of an id that is mapped removes the record, whosever it is.
theorem closing_mem {id : ℤ} {key : OrderKey} (mapped : s.state.orderidToKey.get id = some key)
    (present : s.state.tracks key ≠ none) :
    ⟨id, s.holder.get key, s.names.get id⟩ ∈ (closeOrder s ⟨some id, some "Cancelled"⟩).2 := by
  have closes : takeOrderAck s.state ⟨some id, some "Cancelled"⟩ = dropOrder s.state (key, id) := by
    have terminal : terminalStatus "Cancelled" = true := by decide
    simp only [takeOrderAck, Option.getD_some, terminal, mapped, not_true_eq_false, if_false]
    rfl
  have went : key ∈ gone s.state (dropOrder s.state (key, id)) :=
    mem_gone.mpr ⟨present, (dropOrder_tracks s.state (key, id) key).trans (if_pos rfl)⟩
  refine List.mem_flatMap.mpr ⟨id, Option.mem_toList.mpr rfl, ?_⟩
  rw [closes]
  exact List.mem_map.mpr ⟨key, went, rfl⟩

theorem nameOrder_finds {ack : PlaceAckMsg} {order : ℕ} {turn : Turn} (sided : Sided ack.side)
    (kept : RecordsOwn (nameOrder s turn ack order)) :
    s.state.ourOrders.get ack.key = none ∨ s.holder.get ack.key = some order := by
  have tracked : (nameOrder s turn ack order).state.tracks ack.key = some (some ack.orderId) :=
    (nameOrder_tracks sided ack.key).trans (if_pos rfl)
  have mapped : (nameOrder s turn ack order).state.orderidToKey.get ack.orderId = some ack.key :=
    (kept.consistent ack.orderId ack.key).mpr tracked
  have closes := closing_mem mapped (by rw [tracked]; exact Option.some_ne_none _)
  obtain ⟨other, holds, named⟩ := kept.closing _ _ closes
  cases found : s.state.ourOrders.get ack.key with
  | none => exact .inl rfl
  | some existing =>
    right
    have names := (@nameOrder_names s ack order turn ack.orderId).trans (if_pos rfl)
    obtain rfl := Option.some.inj (names.symm.trans named)
    have kept_holder : (nameOrder s turn ack order).holder = s.holder := by
      simp only [nameOrder, found, Option.isSome_some, if_true]
    exact kept_holder ▸ holds

-- A quote that replaces an order of known id without a cancel leaves the id mapped.
theorem tracked_fresh (held : Attributed s) {p : PendingTick} (pending : s.ticking = some p)
    (kept : Consistent (p.decisions.foldl (trackOne · p) { s with ticking := none }).state) {d : Decision}
    (decided : d ∈ p.decisions) {existing : OurOrder}
    (found : s.state.ourOrders.get (orderKey p.tick d.side) = some existing) (known : existing.orderId.isSome) :
    cancelThresholdS < gtdLifetimeS - seconds (p.turn.nowMonotonicNs - existing.placeMonotonicNs) := by
  by_contra late
  obtain ⟨id, named⟩ := Option.isSome_iff_exists.mp known
  have tracked : s.state.tracks (orderKey p.tick d.side) = some (some id) :=
    (tracks_found found).trans (congrArg some named)
  have uncancelled : ∀ other ∈ p.decisions, other.cancelOldOid ≠ some id := by
    intro other member cancels
    obtain ⟨current, own⟩ := held.ticking p pending other member
    have same := belongs_key (own id cancels) (tracked_belongs held tracked)
    rw [current existing (same ▸ found)] at cancels
    unfold cancelOldOid at cancels
    rw [if_neg late] at cancels
    cases cancels
  rw [tracked_state] at kept
  have mapped := (@placed_spared p.tick p.turn p.decisions id uncancelled s.state).trans
    ((held.consistent id _).mpr tracked)
  have replaced := @placed_tracks p.tick p.turn p.decisions s.state (orderKey p.tick d.side)
  rw [if_pos (List.mem_map.mpr ⟨d, decided, rfl⟩)] at replaced
  cases replaced.symm.trans ((kept id _).mp mapped)

theorem orderly_step (held : Attributed s) {quoting : Quoting} {e : TaskEvent}
    (kept : RecordsOwn (taskStep quoting s e).1) (own : ∀ removal ∈ (taskStep quoting s e).2, removal.Own) :
    Orderly s e := by
  cases e with
  | received turn body order =>
    intro idle
    cases arrival : arrivalOf body with
    | placeAck ack =>
      intro sided
      simp only [taskStep, idle, arrival, if_pos sided] at kept
      exact nameOrder_finds sided kept
    | tick tick => trivial
    | orderAck ack => trivial
    | other => trivial
  | tracked =>
    intro p pending d decided existing found known
    have ticks : s.ticking = some p := pending
    simp only [taskStep, ticks] at kept
    exact tracked_fresh held ticks kept.consistent decided found known
  | scanned turn => trivial
  | dropped =>
    intro stale pending
    have drops : s.dropping = some stale := pending
    simp only [taskStep, drops] at own
    obtain ⟨belong, once⟩ := held.dropping stale pending
    exact (dropped_own_iff (loop_attributed held) ⟨belong, once⟩).mp own

end Broken

end Kept

section Runs

variable {quoting : Quoting} {trader : TraderState}

theorem start_attributed (unplaced : trader.ourOrders = ∅) (unnamed : trader.orderidToKey = ∅) :
    Attributed (.start trader) := by
  have untracked : ∀ key, trader.tracks key = none := by
    intro key
    unfold TraderState.tracks
    rw [unplaced]
    rfl
  constructor
  case consistent =>
    intro id key
    change trader.orderidToKey.get id = some key ↔ trader.tracks key = _
    rw [untracked, unnamed, HashMap.get_empty]
    constructor
    · intro mapped
      cases mapped
    · intro tracked
      cases tracked
  case below =>
    intro id order named
    cases named
  case single =>
    intro id other order named
    cases named
  case owned =>
    intro key id tracked
    cases (untracked key).symm.trans tracked
  case keyed =>
    intro key present
    exact absurd (untracked key) present
  case unnamed =>
    intro key order nameless
    cases (untracked key).symm.trans nameless
  case ticking =>
    intro p pending
    cases pending
  case dropping =>
    intro stale pending
    cases pending

theorem ordersKept_nil {s : Tasks} : OrdersKept quoting s [] ↔ RecordsOwn s := by
  constructor
  · intro kept
    exact kept.reached [] [] rfl
  · intro own
    constructor
    · intro past rest split
      obtain ⟨rfl, -⟩ := List.append_eq_nil_iff.mp split.symm
      exact own
    · intro removal member
      cases member

theorem ordersKept_cons {s : Tasks} {e : TaskEvent} {rest : List TaskEvent} :
    OrdersKept quoting s (e :: rest) ↔ RecordsOwn s ∧ (∀ removal ∈ (taskStep quoting s e).2, removal.Own) ∧
      OrdersKept quoting (taskStep quoting s e).1 rest := by
  constructor
  · intro kept
    refine ⟨kept.reached [] _ rfl, ?_, ?_, ?_⟩
    · exact fun removal member => kept.own removal (List.mem_append_left _ member)
    · intro past left split
      exact kept.reached (e :: past) left (split ▸ rfl)
    · exact fun removal member => kept.own removal (List.mem_append_right _ member)
  · intro given
    obtain ⟨own, removed, kept⟩ := given
    constructor
    · intro past left split
      cases past with
      | nil => exact own
      | cons first past =>
        obtain ⟨rfl, tail⟩ := List.cons_eq_cons.mp split
        exact kept.reached past left tail
    · intro removal member
      rcases List.mem_append.mp member with first | later
      · exact removed removal first
      · exact kept.own removal later

theorem kept_iff {s : Tasks} (held : Attributed s) {events : List TaskEvent}
    (once : Machine.Along (taskStep quoting) NamesOnce s events) :
    OrdersKept quoting s events ↔ Machine.Along (taskStep quoting) Orderly s events := by
  induction events generalizing s with
  | nil => exact ordersKept_nil.trans ⟨fun _ => trivial, fun _ => records_own held⟩
  | cons e rest next =>
    rw [ordersKept_cons]
    constructor
    · intro given
      obtain ⟨-, removed, kept⟩ := given
      have orderly := orderly_step held (kept.reached [] rest rfl) removed
      exact ⟨orderly, (next (attributed_step held once.1 orderly).1 once.2).mp kept⟩
    · intro along
      obtain ⟨later, removed⟩ := @attributed_step s held quoting e once.1 along.1
      exact ⟨records_own held, removed, (next later once.2).mpr along.2⟩

end Runs

theorem orders_kept_iff (quoting : Quoting) (trader : TraderState) (events : List TaskEvent)
    (unplaced : trader.ourOrders = ∅) (unnamed : trader.orderidToKey = ∅)
    (once : Machine.Along (taskStep quoting) NamesOnce (.start trader) events) :
    OrdersKept quoting (.start trader) events ↔ Machine.Along (taskStep quoting) Orderly (.start trader) events :=
  kept_iff (start_attributed unplaced unnamed) once

section AtTheMoney

open Daemon

def acked (id : ℤ) (side : String) : Body F64 :=
  [("type", .str "place_ack"), ("orderId", .int id), ("strike", .float (.finite 6)), ("expiry", .str "20260626"),
    ("right", .str "C"), ("side", .str side), ("price", .float (.finite (1/8)))]

def closed (id : ℤ) (status : String) : Body F64 :=
  [("type", .str "order_ack"), ("orderId", .int id), ("status", .str status)]

def darkTick : Body F64 := atmTick.map fun field => if field.1 = "bid_size" then ("bid_size", .int 0) else field

def bothQuoted : List TaskEvent :=
  [.received quotes atmTick 0, .tracked, .received quotes (acked 1 "BUY") 0, .received quotes (acked 2 "SELL") 1]

-- The market goes dark, and one of the two orders found stale fills before the drop.
def darkened : List TaskEvent :=
  bothQuoted ++ [.received quotes darkTick 0, .scanned quotes, .received quotes (closed 2 "Filled") 0, .dropped]

def fourSecondsOn : Turn := ⟨5000000000, 5000000000, true⟩

-- Both quotes are renewed without a cancel, and then the first buy order expires.
def renewed : List TaskEvent :=
  bothQuoted ++ [.received fourSecondsOn atmTick 0, .tracked, .received fourSecondsOn (closed 1 "Cancelled") 0]

end AtTheMoney

theorem darkened_orders_kept :
    OrdersKept Daemon.atmQuoting (.start Daemon.atmTrader) darkened ∧
      Machine.emitted (taskStep Daemon.atmQuoting) (.start Daemon.atmTrader) darkened =
        [⟨2, some 1, some 1⟩, ⟨1, some 0, some 0⟩] := by
  refine ⟨(orders_kept_iff Daemon.atmQuoting Daemon.atmTrader darkened rfl rfl ?_).mpr ?_, ?_⟩
  · decide +kernel
  · decide +kernel
  · decide +kernel

-- The ack of order 0 removes the record of order 2, which rests at the exchange.
theorem renewed_forgotten :
    Machine.Along (taskStep Daemon.atmQuoting) NamesOnce (.start Daemon.atmTrader) renewed ∧
      ¬OrdersKept Daemon.atmQuoting (.start Daemon.atmTrader) renewed := by
  refine ⟨by decide +kernel, fun kept => ?_⟩
  have removed : Machine.emitted (taskStep Daemon.atmQuoting) (.start Daemon.atmTrader) renewed =
      [⟨1, some 2, some 0⟩] := by
    decide +kernel
  obtain ⟨order, held, named⟩ := kept.own ⟨1, some 2, some 0⟩ (removed ▸ List.mem_singleton_self _)
  cases held
  cases named

end Corsair.Trader
