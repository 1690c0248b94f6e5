import Corsair.Trader.Replace

namespace Corsair.Trader

-- What the trader has of a quote: no order, an order without its id, or its id.
def TraderState.tracks (s : TraderState) (key : OrderKey) : Option (Option ℤ) :=
  (s.ourOrders.get key).map OurOrder.orderId

-- What a turn that sends `sent` does to the trader's record of its orders.
structure Books (s next : TraderState) (now : ℕ) (sent : List Command) : Prop where
  quoted : ∀ key ∈ placeKeys sent, next.tracks key = some none
  others : ∀ key, key ∉ placeKeys sent → next.tracks key = s.tracks key ∨
    next.tracks key = none ∧ ∃ id, s.tracks key = some (some id) ∧ (∃ command ∈ sent, CancelsOrder id command) ∧
      ∀ other, next.orderidToKey.get id ≠ some other
  known : ∀ id key, next.orderidToKey.get id = some key → s.orderidToKey.get id = some key
  forgotten : ∀ key ∈ placeKeys sent, ∀ id, replaced s key now = some id →
    ∀ other, next.orderidToKey.get id ≠ some other

theorem books_nothing {s next : TraderState} (orders : next.ourOrders = s.ourOrders)
    (ids : next.orderidToKey = s.orderidToKey) (now : ℕ) : Books s next now [] := by
  refine ⟨?_, ?_, ?_, ?_⟩
  · intro key member
    cases member
  · intro key _
    left
    unfold TraderState.tracks
    rw [orders]
  · intro id key held
    exact ids ▸ held
  · intro key member
    cases member

section Quotes

variable {tick : TickMsg} {turn : Turn}

theorem trackPlaced_tracks (s : TraderState) (d : Decision) (key : OrderKey) :
    (trackPlaced tick turn s d).tracks key = if key = orderKey tick d.side then some none else s.tracks key := by
  unfold TraderState.tracks trackPlaced
  dsimp only
  rw [HashMap.get_set]
  split <;> rfl

theorem trackPlaced_ids (s : TraderState) (d : Decision) (id : ℤ) :
    (trackPlaced tick turn s d).orderidToKey.get id =
      if d.cancelOldOid = some id then none else s.orderidToKey.get id := by
  unfold trackPlaced
  cases d.cancelOldOid with
  | none => rfl
  | some oid =>
    dsimp only
    rw [HashMap.get_remove]
    simp only [Option.some.injEq, eq_comm]

theorem placed_tracks (decisions : List Decision) (s : TraderState) (key : OrderKey) :
    (decisions.foldl (trackPlaced tick turn) s).tracks key =
      if key ∈ decisions.map (orderKey tick ·.side) then some none else s.tracks key := by
  induction decisions generalizing s with
  | nil => rfl
  | cons d rest next =>
    rw [List.foldl_cons, next, trackPlaced_tracks, List.map_cons]
    by_cases own : key = orderKey tick d.side
    · simp [own]
    · simp only [List.mem_cons, own, false_or, if_false]

theorem placed_ids {decisions : List Decision} {s : TraderState} {id : ℤ} {key : OrderKey}
    (held : (decisions.foldl (trackPlaced tick turn) s).orderidToKey.get id = some key) :
    s.orderidToKey.get id = some key ∧ ∀ d ∈ decisions, d.cancelOldOid ≠ some id := by
  induction decisions generalizing s with
  | nil => exact ⟨held, fun d member => nomatch member⟩
  | cons d rest next =>
    obtain ⟨kept, spared⟩ := next held
    rw [trackPlaced_ids] at kept
    split at kept
    · cases kept
    · rename_i different
      refine ⟨kept, fun other member => ?_⟩
      rcases List.mem_cons.mp member with rfl | later
      · exact different
      · exact spared other later

theorem placed_spared {decisions : List Decision} {id : ℤ} (spared : ∀ d ∈ decisions, d.cancelOldOid ≠ some id)
    (s : TraderState) : (decisions.foldl (trackPlaced tick turn) s).orderidToKey.get id = s.orderidToKey.get id := by
  induction decisions generalizing s with
  | nil => rfl
  | cons d rest next =>
    rw [List.foldl_cons, next (fun later member => spared later (List.mem_cons_of_mem _ member)), trackPlaced_ids]
    exact if_neg (spared d List.mem_cons_self)

theorem onTick_books (quoting : Quoting) (s : TraderState) (tick : TickMsg) :
    Books s (onTick quoting turn s tick).1 turn.nowMonotonicNs (onTick quoting turn s tick).2 := by
  unfold onTick
  dsimp only
  split
  · exact @books_nothing s (recordTick s tick) rfl rfl _
  · refine ⟨?_, ?_, ?_, ?_⟩
    · intro key member
      rw [commandsFor_keys] at member
      rw [placed_tracks, if_pos member]
    · intro key absent
      rw [commandsFor_keys] at absent
      rw [placed_tracks, if_neg absent]
      exact .inl rfl
    · intro id key held
      exact (placed_ids held).1
    · intro key member id replaces other held
      rw [commandsFor_keys] at member
      obtain ⟨d, decided, rfl⟩ := List.mem_map.mp member
      exact (placed_ids held).2 d decided ((decided_cancels decided).trans replaces)

end Quotes

section Staleness

theorem staleOrders_tracked {quoting : Quoting} {s : TraderState} {key : OrderKey} {id : ℤ}
    (stale : (key, id) ∈ staleOrders quoting s) : s.tracks key = some (some id) := by
  obtain ⟨⟨own, order⟩, member, made⟩ := List.mem_filterMap.mp stale
  dsimp only at made
  split at made
  · obtain ⟨oid, known, same⟩ := Option.map_eq_some_iff.mp made
    obtain ⟨rfl, rfl⟩ := Prod.mk.inj same
    unfold TraderState.tracks
    rw [HashMap.mem_items.mp member, Option.map_some, known]
  · cases made

theorem staleOrders_once (quoting : Quoting) (s : TraderState) : ((staleOrders quoting s).map Prod.fst).Nodup := by
  have kept : ((staleOrders quoting s).map Prod.fst).Sublist (s.ourOrders.items.map Prod.fst) := by
    unfold staleOrders
    induction s.ourOrders.items with
    | nil => exact .slnil
    | cons entry rest next =>
      rw [List.filterMap_cons, List.map_cons]
      split
      · exact next.cons _
      · rename_i stale made
        split at made
        · obtain ⟨oid, -, rfl⟩ := Option.map_eq_some_iff.mp made
          exact next.cons_cons _
        · cases made
  exact kept.nodup s.ourOrders.nodup_keys

theorem dropOrder_tracks (s : TraderState) (stale : OrderKey × ℤ) (key : OrderKey) :
    (dropOrder s stale).tracks key = if key = stale.1 then none else s.tracks key := by
  unfold TraderState.tracks dropOrder
  dsimp only
  rw [HashMap.get_remove]
  split <;> rfl

theorem dropped_get (stale : List (OrderKey × ℤ)) (s : TraderState) (key : OrderKey) :
    (stale.foldl dropOrder s).ourOrders.get key = if key ∈ stale.map Prod.fst then none else s.ourOrders.get key := by
  induction stale generalizing s with
  | nil => rfl
  | cons first rest next =>
    rw [List.foldl_cons, next, dropOrder, HashMap.get_remove, List.map_cons]
    by_cases own : key = first.1
    · simp [own]
    · simp only [List.mem_cons, own, false_or, if_false]

theorem dropped_tracks (stale : List (OrderKey × ℤ)) (s : TraderState) (key : OrderKey) :
    (stale.foldl dropOrder s).tracks key = if key ∈ stale.map Prod.fst then none else s.tracks key := by
  unfold TraderState.tracks
  rw [dropped_get]
  split <;> rfl

theorem dropped_id_get (stale : List (OrderKey × ℤ)) (s : TraderState) (id : ℤ) :
    (stale.foldl dropOrder s).orderidToKey.get id =
      if id ∈ stale.map Prod.snd then none else s.orderidToKey.get id := by
  induction stale generalizing s with
  | nil => rfl
  | cons first rest next =>
    rw [List.foldl_cons, next, dropOrder, HashMap.get_remove, List.map_cons]
    by_cases own : id = first.2
    · simp [own]
    · simp only [List.mem_cons, own, false_or, if_false]

theorem dropped_ids {stale : List (OrderKey × ℤ)} {s : TraderState} {id : ℤ} {key : OrderKey}
    (held : (stale.foldl dropOrder s).orderidToKey.get id = some key) :
    s.orderidToKey.get id = some key ∧ id ∉ stale.map Prod.snd := by
  rw [dropped_id_get] at held
  split at held
  · cases held
  · rename_i spared
    exact ⟨held, spared⟩

theorem stalenessCheck_books (quoting : Quoting) (turn : Turn) (s : TraderState) :
    Books s (stalenessCheck quoting turn s).1 turn.nowMonotonicNs (stalenessCheck quoting turn s).2 := by
  unfold stalenessCheck
  split
  · exact books_nothing rfl rfl _
  · dsimp only
    have unplaced : ∀ key,
        key ∉ placeKeys ((staleOrders quoting s).map fun stale => .cancel ⟨turn.nowWallNs, stale.2⟩) := by
      intro key member
      obtain ⟨command, sent, places⟩ := mem_placeKeys.mp member
      exact cancels_unplaced _ _ key command sent places
    refine ⟨fun key member => absurd member (unplaced key), ?_, fun id key held => (dropped_ids held).1,
      fun key member => absurd member (unplaced key)⟩
    intro key _
    rw [dropped_tracks]
    split
    · rename_i dropped
      obtain ⟨⟨own, id⟩, stale, rfl⟩ := List.mem_map.mp dropped
      refine .inr ⟨rfl, id, staleOrders_tracked stale, ⟨_, List.mem_map.mpr ⟨_, stale, rfl⟩, _, rfl, rfl⟩, ?_⟩
      intro other held
      exact (dropped_ids held).2 (List.mem_map.mpr ⟨_, stale, rfl⟩)
    · exact .inl rfl

end Staleness

theorem traderStep_books {quoting : Quoting} {turn : Turn} {s : TraderState} {input : TraderInput}
    (apart : ¬IsAck input) :
    Books s (traderStep quoting s (turn, input)).1 turn.nowMonotonicNs (traderStep quoting s (turn, input)).2 := by
  cases input with
  | event body =>
    change Books s (processEvent quoting turn s body).1 _ (processEvent quoting turn s body).2
    rcases @processEvent_cases quoting s turn body apart with ⟨tick, ticked⟩ | ⟨silent, orders, ids⟩
    · rw [ticked]
      exact onTick_books quoting s tick
    · rw [silent]
      exact books_nothing orders ids _
  | stalenessLoop => exact stalenessCheck_books quoting turn s

section Acks

variable {s : TraderState}

def PlaceAckMsg.key (a : PlaceAckMsg) : OrderKey :=
  ⟨a.strike, a.expiry, sideChar a.right, if a.side = Side.buy.asStr then 'B' else 'S'⟩

def Sided (side : String) : Prop := side = Side.buy.asStr ∨ side = Side.sell.asStr

theorem placeFor_sided (tick : TickMsg) (turn : Turn) (d : Decision) : Sided (placeFor tick turn d).side := by
  unfold placeFor
  cases d.side with
  | buy => exact .inl rfl
  | sell => exact .inr rfl

theorem traderStep_sided {quoting : Quoting} {turn : Turn} {input : TraderInput} (apart : ¬IsAck input)
    {p : PlaceOrder} (sent : .place p ∈ (traderStep quoting s (turn, input)).2) : Sided p.side := by
  have cancel_only : ∀ {α : Type} (xs : List α) (cancel : α → CancelOrder),
      .place p ∉ xs.map fun x => Command.cancel (cancel x) := fun xs cancel member =>
    cancels_unplaced xs cancel p.key _ member ⟨p, rfl, rfl⟩
  cases input with
  | event body =>
    change .place p ∈ (processEvent quoting turn s body).2 at sent
    rcases @processEvent_cases quoting s turn body apart with ⟨tick, ticked⟩ | ⟨silent, -⟩
    · rw [ticked] at sent
      unfold onTick at sent
      dsimp only at sent
      split at sent
      · cases sent
      · obtain ⟨d, -, made⟩ := List.mem_flatMap.mp sent
        rcases List.mem_append.mp made with cancel | place
        · exact absurd cancel (cancel_only _ _)
        · cases List.mem_singleton.mp place
          exact placeFor_sided tick turn d
    · rw [silent] at sent
      cases sent
  | stalenessLoop =>
    simp only [traderStep, stalenessCheck] at sent
    split at sent
    · cases sent
    · exact absurd sent (cancel_only _ _)

theorem takePlaceAck_writes {a : PlaceAckMsg} (sided : Sided a.side) (turn : Turn) :
    ∃ order : OurOrder, order.orderId = some a.orderId ∧
      takePlaceAck turn s a =
        { s with ourOrders := s.ourOrders.set a.key order, orderidToKey := s.orderidToKey.set a.orderId a.key } := by
  unfold takePlaceAck PlaceAckMsg.key
  rcases sided with buy | sell
  · rw [buy]
    refine ⟨_, ?_, rfl⟩
    split <;> rfl
  · rw [sell]
    refine ⟨_, ?_, rfl⟩
    split <;> rfl

theorem takePlaceAck_tracks {a : PlaceAckMsg} (sided : Sided a.side) (turn : Turn) (key : OrderKey) :
    (takePlaceAck turn s a).tracks key = if key = a.key then some (some a.orderId) else s.tracks key := by
  obtain ⟨order, known, written⟩ := @takePlaceAck_writes s a sided turn
  unfold TraderState.tracks
  rw [written, HashMap.get_set]
  split
  · rw [Option.map_some, known]
  · rfl

theorem takePlaceAck_ids {a : PlaceAckMsg} (sided : Sided a.side) (turn : Turn) (id : ℤ) :
    (takePlaceAck turn s a).orderidToKey.get id = if id = a.orderId then some a.key else s.orderidToKey.get id := by
  obtain ⟨order, known, written⟩ := @takePlaceAck_writes s a sided turn
  rw [written, HashMap.get_set]

-- An ack forgets an order at most, and that only on a terminal status of its id.
theorem takeOrderAck_cases (a : OrderAckMsg) :
    takeOrderAck s a = s ∨ ∃ id, a.orderId = some id ∧ terminalStatus (a.status.getD "") ∧
      ((s.orderidToKey.get id = none ∧ takeOrderAck s a = { s with orderidToKey := s.orderidToKey.remove id }) ∨
        ∃ key, s.orderidToKey.get id = some key ∧
          takeOrderAck s a =
            { s with orderidToKey := s.orderidToKey.remove id, ourOrders := s.ourOrders.remove key }) := by
  unfold takeOrderAck
  cases a.orderId with
  | none => exact .inl rfl
  | some id =>
    dsimp only
    by_cases terminal : terminalStatus (a.status.getD "")
    · rw [if_neg (not_not.mpr terminal)]
      cases mapped : s.orderidToKey.get id with
      | none => exact .inr ⟨id, rfl, terminal, .inl ⟨mapped, rfl⟩⟩
      | some key => exact .inr ⟨id, rfl, terminal, .inr ⟨key, mapped, rfl⟩⟩
    · rw [if_pos terminal]
      exact .inl rfl

end Acks

end Corsair.Trader
