import Corsair.Ipc.Ring
import Corsair.Trader.Throttle

namespace Corsair.Ipc.Ring

open Framing

-- One call of write_frame, through to the publication. True if the frame was taken.
def send (shape : Shape) (s : Ring) (body : Bytes) : Ring × Bool :=
  let (offered, refused) := s.writeFrame shape body
  ((((offered.produce shape).1.produce shape).1.produce shape).1, refused.isEmpty)

theorem send_full {shape : Shape} {s : Ring} (full : subU64 shape.capacity (subU64 s.write s.read) = 0)
    (idle : s.producer = .idle) (body : Bytes) :
    s.send shape body = ({ s with framesDropped := s.framesDropped + 1 }, false) := by
  have sized : 0 < (packFrame body).length := by
    unfold packFrame prefixed be32
    rw [List.length_append, List.length_cons]
    omega
  unfold send writeFrame
  simp only [full]
  split
  · simp [produce, idle]
  · simp [produce, idle]

end Corsair.Ipc.Ring

namespace Corsair.Trader

open Framing Ipc Wire

-- The commands ring under a batch: `others n` is what the reader and the trader's
-- other tasks have made of it before the n-th frame.
structure CommandsRing where
  shape : Shape
  ring : Ring
  others : ℕ → Ring → Ring

-- rmp_serde::to_vec_named. A command that does not encode is not offered.
variable (toVecNamed : Body F64 → Option Bytes)

def offer (shape : Shape) (ring : Ring) (command : Command) : Ring × Bool :=
  match toVecNamed command.encode with
  | none => (ring, false)
  | some body => ring.send shape body

def outcomesFrom (c : CommandsRing) : ℕ → Ring → List Command → List Bool
  | _, _, [] => []
  | n, ring, command :: rest =>
    let (next, taken) := offer toVecNamed c.shape (c.others n ring) command
    taken :: outcomesFrom c (n + 1) next rest

def outcomes (c : CommandsRing) (commands : List Command) : List Bool := outcomesFrom toVecNamed c 0 c.ring commands

section Batches

variable (c : CommandsRing) (quoting : Quoting) (turn : Turn) (s : TraderState)

def tickSent (tick : TickMsg) : List (Command × Bool) :=
  (onTick quoting turn s tick).2.zip (outcomes toVecNamed c (onTick quoting turn s tick).2)

def staleSent : List ((OrderKey × ℤ) × Bool) :=
  (staleOrders quoting s).zip (outcomes toVecNamed c (stalenessCheck quoting turn s).2)

-- What on_tick changes in the trader's records, the ring took a frame for.
structure TickBelieves (tick : TickMsg) : Prop where
  orders : ∀ key, (onTick quoting turn s tick).1.ourOrders.get key ≠ s.ourOrders.get key →
    ∃ p, (.place p, true) ∈ tickSent toVecNamed c quoting turn s tick ∧ p.key = key
  ids : ∀ id, (onTick quoting turn s tick).1.orderidToKey.get id ≠ s.orderidToKey.get id →
    ∃ cancel, (.cancel cancel, true) ∈ tickSent toVecNamed c quoting turn s tick ∧ cancel.orderId = id

structure StalenessBelieves : Prop where
  orders : ∀ key, (stalenessCheck quoting turn s).1.ourOrders.get key ≠ s.ourOrders.get key →
    ∃ id, ((key, id), true) ∈ staleSent toVecNamed c quoting turn s
  ids : ∀ id, (stalenessCheck quoting turn s).1.orderidToKey.get id ≠ s.orderidToKey.get id →
    ∃ key, ((key, id), true) ∈ staleSent toVecNamed c quoting turn s

-- The ring takes every place of the tick, and a cancel of each id to cancel that is known.
structure TickDelivered (tick : TickMsg) : Prop where
  places : ∀ p taken, (.place p, taken) ∈ tickSent toVecNamed c quoting turn s tick → taken = true
  cancels : ∀ cancel taken, (.cancel cancel, taken) ∈ tickSent toVecNamed c quoting turn s tick →
    (s.orderidToKey.get cancel.orderId).isSome →
      ∃ other, (.cancel other, true) ∈ tickSent toVecNamed c quoting turn s tick ∧ other.orderId = cancel.orderId

def StaleDelivered : Prop := ∀ entry taken, (entry, taken) ∈ staleSent toVecNamed c quoting turn s → taken = true

end Batches

section Zips

variable {α κ : Type} {f : α → Option κ}

-- Where a key comes once, so does the outcome at it.
theorem zip_agree {xs : List α} {outs : List Bool} (once : (xs.filterMap f).Nodup) {x y : α} {k : κ} (xk : f x = some k)
    (yk : f y = some k) {a b : Bool} (one : (x, a) ∈ xs.zip outs) (other : (y, b) ∈ xs.zip outs) : a = b := by
  induction xs generalizing outs with
  | nil => cases one
  | cons first rest next =>
    cases outs with
    | nil => cases one
    | cons out outs =>
      have apart : ∀ {z : α} {w : Bool}, f first = some k → f z = some k → (z, w) ∉ rest.zip outs := by
        intro z w firstk zk later
        rw [List.filterMap_cons_some firstk, List.nodup_cons] at once
        exact once.1 (List.mem_filterMap.mpr ⟨z, (List.of_mem_zip later).1, zk⟩)
      have rest_once : (rest.filterMap f).Nodup := by
        cases firstk : f first with
        | none => rwa [List.filterMap_cons_none firstk] at once
        | some l =>
          rw [List.filterMap_cons_some firstk, List.nodup_cons] at once
          exact once.2
      rw [List.zip_cons_cons, List.mem_cons] at one other
      rcases one with here | one
      · cases here
        rcases other with here | other
        · cases here
          rfl
        · exact absurd other (apart xk yk)
      · rcases other with here | other
        · cases here
          exact absurd one (apart yk xk)
        · exact next rest_once one other

variable {toVecNamed}

theorem outcomes_length (c : CommandsRing) (commands : List Command) :
    (outcomes toVecNamed c commands).length = commands.length := by
  have all_sent : ∀ (commands : List Command) (n : ℕ) (ring : Ring),
      (outcomesFrom toVecNamed c n ring commands).length = commands.length := by
    intro commands
    induction commands with
    | nil =>
      intro n ring
      rfl
    | cons command rest next =>
      intro n ring
      exact congrArg (· + 1) (next _ _)
  exact all_sent commands 0 c.ring

theorem sent_of_mem {xs : List α} {outs : List Bool} (same : outs.length = xs.length) {x : α} (member : x ∈ xs) :
    ∃ taken, (x, taken) ∈ xs.zip outs := by
  have whole : (xs.zip outs).map Prod.fst = xs := List.map_fst_zip same.ge
  rw [← whole] at member
  obtain ⟨⟨_, taken⟩, held, rfl⟩ := List.mem_map.mp member
  exact ⟨taken, held⟩

end Zips

section Ticks

variable {toVecNamed} {c : CommandsRing} {quoting : Quoting} {turn : Turn} {s : TraderState} {tick : TickMsg}

theorem sent_cancels {cancel : CancelOrder} (sent : .cancel cancel ∈ (onTick quoting turn s tick).2) :
    ∃ d ∈ decideOnTick quoting (recordTick s tick) tick turn.nowMonotonicNs, d.cancelOldOid = some cancel.orderId := by
  unfold onTick at sent
  dsimp only at sent
  split at sent
  · cases sent
  · obtain ⟨d, decided, made⟩ := List.mem_flatMap.mp sent
    refine ⟨d, decided, ?_⟩
    rcases List.mem_append.mp made with cancels | place
    · obtain ⟨oid, known, same⟩ := List.mem_map.mp cancels
      cases same
      exact Option.mem_toList.mp known
    · cases List.mem_singleton.mp place

-- A place always changes the record: one made now would be in its cooldown.
theorem place_changes {p : PlaceOrder} (sent : .place p ∈ (onTick quoting turn s tick).2) :
    (onTick quoting turn s tick).1.ourOrders.get p.key ≠ s.ourOrders.get p.key := by
  obtain ⟨d, decided, same, own, recorded⟩ := sent_places sent ⟨p, rfl, rfl⟩
  rw [recorded]
  intro unchanged
  rw [← own] at unchanged
  have waits := (keepsQuote_waits (@decided_waits quoting (recordTick s tick) tick d _ _ decided unchanged.symm)).1
  unfold cooldownNs at waits
  dsimp only at waits
  omega

theorem cancel_forgets {cancel : CancelOrder} (sent : .cancel cancel ∈ (onTick quoting turn s tick).2) :
    (onTick quoting turn s tick).1.orderidToKey.get cancel.orderId = none := by
  obtain ⟨d, decided, cancels⟩ := sent_cancels sent
  cases forgotten : (onTick quoting turn s tick).1.orderidToKey.get cancel.orderId with
  | none => rfl
  | some key =>
    unfold onTick at sent forgotten
    dsimp only at sent forgotten
    split at forgotten
    · rename_i disabled
      rw [if_pos disabled] at sent
      cases sent
    · exact absurd cancels ((placed_ids forgotten).2 d decided)

theorem orders_changed {key : OrderKey}
    (changed : (onTick quoting turn s tick).1.ourOrders.get key ≠ s.ourOrders.get key) :
    ∃ p, .place p ∈ (onTick quoting turn s tick).2 ∧ p.key = key := by
  unfold onTick at *
  dsimp only at *
  split at changed
  · exact absurd rfl changed
  · rename_i enabled
    rw [if_neg enabled]
    by_contra unplaced
    apply changed
    apply placed_others
    rw [← @commandsFor_keys turn, mem_placeKeys]
    rintro ⟨command, sent, p, rfl, own⟩
    exact unplaced ⟨p, sent, own⟩

theorem ids_changed {id : ℤ} (changed : (onTick quoting turn s tick).1.orderidToKey.get id ≠ s.orderidToKey.get id) :
    (s.orderidToKey.get id).isSome ∧ ∃ cancel, .cancel cancel ∈ (onTick quoting turn s tick).2 ∧ cancel.orderId = id := by
  unfold onTick at *
  dsimp only at *
  split at changed
  · exact absurd rfl changed
  · rename_i enabled
    rw [if_neg enabled]
    refine ⟨?_, ?_⟩
    · by_contra unknown
      rw [Option.not_isSome_iff_eq_none] at unknown
      apply changed
      rw [unknown, Option.eq_none_iff_forall_not_mem]
      intro key held
      have before : s.orderidToKey.get id = some key := (placed_ids held).1
      rw [unknown] at before
      cases before
    · by_contra uncancelled
      apply changed
      apply placed_spared
      intro d decided cancels
      refine uncancelled ⟨⟨turn.nowWallNs, id⟩, List.mem_flatMap.mpr ⟨d, decided, ?_⟩, rfl⟩
      apply List.mem_append_left
      exact List.mem_map.mpr ⟨id, Option.mem_toList.mpr cancels, rfl⟩

theorem tick_believes_iff :
    TickBelieves toVecNamed c quoting turn s tick ↔ TickDelivered toVecNamed c quoting turn s tick := by
  have offered : ∀ {command : Command}, command ∈ (onTick quoting turn s tick).2 →
      ∃ taken, (command, taken) ∈ tickSent toVecNamed c quoting turn s tick :=
    fun sent => sent_of_mem (outcomes_length c _) sent
  constructor
  · intro believes
    refine ⟨?_, ?_⟩
    · intro p taken held
      obtain ⟨other, accepted, own⟩ := believes.orders p.key (place_changes (List.of_mem_zip held).1)
      have one : (Command.place p).placeKey? = some p.key := rfl
      have same : (Command.place other).placeKey? = some p.key := congrArg some own
      exact zip_agree (onTick_sends tick).once one same held accepted
    · intro cancel taken held known
      apply believes.ids
      rw [cancel_forgets (List.of_mem_zip held).1]
      exact (Option.isSome_iff_ne_none.mp known).symm
  · intro delivered
    refine ⟨?_, ?_⟩
    · intro key changed
      obtain ⟨p, sent, own⟩ := orders_changed changed
      obtain ⟨taken, held⟩ := offered sent
      obtain rfl := delivered.places p taken held
      exact ⟨p, held, own⟩
    · intro id changed
      obtain ⟨known, cancel, sent, rfl⟩ := ids_changed changed
      obtain ⟨taken, held⟩ := offered sent
      exact delivered.cancels cancel taken held known

end Ticks

section Staleness

variable {toVecNamed} {c : CommandsRing} {quoting : Quoting} {turn : Turn} {s : TraderState}

theorem staleness_believes_iff :
    StalenessBelieves toVecNamed c quoting turn s ↔ StaleDelivered toVecNamed c quoting turn s := by
  by_cases enabled : turn.placesOrders
  · have dropped : (stalenessCheck quoting turn s).1 = (staleOrders quoting s).foldl dropOrder s := by
      unfold stalenessCheck
      rw [if_neg (not_not.mpr enabled)]
    have offered : ∀ {entry : OrderKey × ℤ}, entry ∈ staleOrders quoting s →
        ∃ taken, (entry, taken) ∈ staleSent toVecNamed c quoting turn s := by
      intro entry stale
      apply sent_of_mem
      · rw [outcomes_length]
        unfold stalenessCheck
        rw [if_neg (not_not.mpr enabled), List.length_map]
      · exact stale
    constructor
    · intro believes entry taken held
      obtain ⟨key, id⟩ := entry
      have stale := (List.of_mem_zip held).1
      have changed : (stalenessCheck quoting turn s).1.ourOrders.get key ≠ s.ourOrders.get key := by
        have tracked := staleOrders_tracked stale
        rw [dropped, dropped_get, if_pos (List.mem_map.mpr ⟨_, stale, rfl⟩)]
        intro same
        unfold TraderState.tracks at tracked
        rw [← same] at tracked
        cases tracked
      obtain ⟨other, accepted⟩ := believes.orders key changed
      apply @zip_agree _ _ (fun entry : OrderKey × ℤ => some entry.1) _ _ _ _ _ key rfl rfl _ _ held accepted
      rw [List.filterMap_eq_map']
      exact staleOrders_once quoting s
    · intro delivered
      refine ⟨?_, ?_⟩
      · intro key changed
        rw [dropped, dropped_get] at changed
        split at changed
        · rename_i listed
          obtain ⟨⟨_, id⟩, stale, rfl⟩ := List.mem_map.mp listed
          obtain ⟨taken, held⟩ := offered stale
          obtain rfl := delivered _ taken held
          exact ⟨id, held⟩
        · exact absurd rfl changed
      · intro id changed
        rw [dropped, dropped_id_get] at changed
        split at changed
        · rename_i listed
          obtain ⟨⟨key, _⟩, stale, rfl⟩ := List.mem_map.mp listed
          obtain ⟨taken, held⟩ := offered stale
          obtain rfl := delivered _ taken held
          exact ⟨key, held⟩
        · exact absurd rfl changed
  · have idle : stalenessCheck quoting turn s = (s, []) := by
      unfold stalenessCheck
      rw [if_pos enabled]
    constructor
    · intro _ entry taken held
      unfold staleSent at held
      rw [idle] at held
      simp [outcomes, outcomesFrom] at held
    · intro _
      refine ⟨?_, ?_⟩
      · intro key changed
        rw [idle] at changed
        exact absurd rfl changed
      · intro id changed
        rw [idle] at changed
        exact absurd rfl changed

end Staleness

theorem dropped_command_iff (toVecNamed : Body F64 → Option Bytes) (c : CommandsRing) (quoting : Quoting) (turn : Turn)
    (s : TraderState) (tick : TickMsg) :
    (TickBelieves toVecNamed c quoting turn s tick ↔ TickDelivered toVecNamed c quoting turn s tick) ∧
      (StalenessBelieves toVecNamed c quoting turn s ↔ StaleDelivered toVecNamed c quoting turn s) :=
  ⟨tick_believes_iff, staleness_believes_iff⟩

-- A ring of 1 KiB that the daemon has not read from since it filled.
def fullRing : CommandsRing where
  shape := ⟨1024, by decide, by decide⟩
  ring := { Ring.create ⟨1024, by decide, by decide⟩ with write := 1024 }
  others _ ring := ring

theorem fullRing_rejects (toVecNamed : Body F64 → Option Bytes) (commands : List Command) :
    true ∉ outcomes toVecNamed fullRing commands := by
  have rejects : ∀ (commands : List Command) (n dropped : ℕ), true ∉
      outcomesFrom toVecNamed fullRing n { fullRing.ring with framesDropped := dropped } commands := by
    intro commands
    induction commands with
    | nil =>
      intro n dropped given
      cases given
    | cons command rest next =>
      intro n dropped given
      unfold outcomesFrom offer at given
      cases encoded : toVecNamed command.encode with
      | none =>
        simp only [encoded, List.mem_cons, Bool.true_eq_false, false_or] at given
        exact next (n + 1) dropped given
      | some body =>
        have full : subU64 fullRing.shape.capacity (subU64 fullRing.ring.write fullRing.ring.read) = 0 := by
          decide +kernel
        have refused := @Ring.send_full fullRing.shape { fullRing.ring with framesDropped := dropped } full rfl body
        have found : fullRing.others n { fullRing.ring with framesDropped := dropped } =
          { fullRing.ring with framesDropped := dropped } := rfl
        simp only [encoded, found, refused, List.mem_cons, Bool.true_eq_false, false_or] at given
        exact next (n + 1) (dropped + 1) given
  exact rejects commands 0 0

-- An acked sell of the put at 0.20, under a theo of 0.239.
def cheapPut : TraderState :=
  { longTrader 0 with ourOrders := (∅ : HashMap _ _).set ⟨6, "20260826", 'P', 'S'⟩ ⟨1/5, 1, some 7⟩ }

-- With the ring full the tick records a quote that nobody was sent, and the staleness
-- check drops an order that nobody was told to cancel.
theorem full_ring_believed :
    (¬∃ toVecNamed, TickBelieves toVecNamed fullRing sviQuoting ⟨1000000000, 1, true⟩ (longTrader 0)
      (putTick (1/5) (1/4))) ∧
      ¬∃ toVecNamed, StalenessBelieves toVecNamed fullRing sviQuoting ⟨1000000000, 1, true⟩ cheapPut := by
  refine ⟨?_, ?_⟩
  · intro given
    obtain ⟨toVecNamed, believes⟩ := given
    have sent : .place (soldPut 1) ∈
        (onTick sviQuoting ⟨1000000000, 1, true⟩ (longTrader 0) (putTick (1/5) (1/4))).2 := by decide +kernel
    obtain ⟨p, accepted, -⟩ := believes.orders _ (place_changes sent)
    exact fullRing_rejects toVecNamed _ (List.of_mem_zip accepted).2
  · intro given
    obtain ⟨toVecNamed, believes⟩ := given
    obtain ⟨id, accepted⟩ := believes.orders ⟨6, "20260826", 'P', 'S'⟩ (by decide +kernel)
    exact fullRing_rejects toVecNamed _ (List.of_mem_zip accepted).2

end Corsair.Trader
