import Corsair.Daemon.OneQuote
import Corsair.Trader.Bookkeeping

namespace Corsair.Daemon

open BrokerApi MarketData Trader Wire

-- The trader quotes a key it tracks only once the order's id is known to it and
-- while a second of the five is left.
def QuotesTimely (quoting : Quoting) (w : Wiring) (s : Pair) (input : PairInput) : Prop :=
  ∀ p, .place p ∈ (pairStep quoting w s input).2 → ∀ existing, s.trader.ourOrders.get p.key = some existing →
    existing.orderId ≠ none ∧ seconds (s.nowNs - existing.placeMonotonicNs) < gtdLifetimeS - cancelThresholdS

-- The trader's record of its orders against the broker's. Every order at work is
-- about to be cancelled, tracked with its id, or tracked with the id on the way.
structure Tracks (w : Wiring) (s : Pair) : Prop where
  orders : ∀ o ∈ s.orders, o.working (w.utc s.nowNs) →
    (∃ command ∈ s.commands, CancelsOrder o.id command) ∨ s.trader.tracks o.key = some (some (o.id : ℤ)) ∨
      s.trader.tracks o.key = some none ∧ ∃ ack ∈ s.placeAcks, ack.key = o.key ∧ ack.orderId = o.id
  waiting : ∀ key ∈ placeKeys s.commands, s.trader.tracks key = some none ∧ key ∉ s.placeAcks.map PlaceAckMsg.key
  sided : ∀ p, .place p ∈ s.commands → Sided p.side
  acks : ∀ ack ∈ s.placeAcks, Sided ack.side ∧ s.trader.tracks ack.key = some none
  once : (s.placeAcks.map PlaceAckMsg.key).Nodup
  mapped : ∀ id key, s.trader.orderidToKey.get id = some key → s.trader.tracks key = some (some id)
  ended : ∀ ack ∈ s.orderAcks, ∀ id, ack.orderId = some id → terminalStatus (ack.status.getD "") →
    ∀ o ∈ s.orders, (o.id : ℤ) = id → ¬o.working (w.utc s.nowNs)
  fresh : ∀ ack ∈ s.orderAcks, ∀ id, ack.orderId = some id → id < (s.nextId : ℤ)
  ids : ∀ o ∈ s.orders, o.id < s.nextId

section Timely

variable {quoting : Quoting} {w : Wiring} {s : Pair}

theorem tracks_found {t : TraderState} {key : OrderKey} {id : Option ℤ} (tracked : t.tracks key = some id) :
    ∃ existing, t.ourOrders.get key = some existing ∧ existing.orderId = id := Option.map_eq_some_iff.mp tracked

-- A key about to be quoted is not one whose id is still on the way.
theorem timely_known {input : PairInput} (timely : QuotesTimely quoting w s input) {p : PlaceOrder}
    (sent : .place p ∈ (pairStep quoting w s input).2) : s.trader.tracks p.key ≠ some none := by
  intro unknown
  obtain ⟨existing, tracked, missing⟩ := tracks_found unknown
  exact (timely p sent existing tracked).1 missing

theorem timely_replaced {input : PairInput} (timely : QuotesTimely quoting w s input) {p : PlaceOrder}
    (sent : .place p ∈ (pairStep quoting w s input).2) {id : ℤ} (tracked : s.trader.tracks p.key = some (some id)) :
    replaced s.trader p.key s.nowNs = some id := by
  obtain ⟨existing, held, known⟩ := tracks_found tracked
  exact cancels_replaced held known (timely p sent existing held).2

theorem timely_clear (tracks : Tracks w s) {input : PairInput} (timely : QuotesTimely quoting w s input) :
    QuotesClear quoting w s input := by
  intro p sent
  constructor
  · intro earlier waits same
    have unknown := (tracks.waiting p.key (mem_placeKeys.mpr ⟨_, waits, earlier, rfl, same⟩)).1
    exact timely_known timely sent unknown
  · intro o placed own works
    rcases tracks.orders o placed works with cancelled | known | ⟨unknown, -⟩
    · exact .inl cancelled
    · right
      rw [own] at known
      obtain ⟨existing, held, id⟩ := tracks_found known
      exact ⟨existing, held, id, (timely p sent existing held).2⟩
    · rw [own] at unknown
      exact absurd unknown (timely_known timely sent)

end Timely

section Turns

variable {quoting : Quoting} {w : Wiring} {s : Pair}

-- A turn of the trader, told by what it sends and what it does to its record.
theorem turn_tracks (tracks : Tracks w s) {next : TraderState} {sent : List Command}
    (books : Books s.trader next s.nowNs sent) (sends : Sends s.trader s.nowNs sent)
    (sided : ∀ p, .place p ∈ sent → Sided p.side) (known : ∀ key ∈ placeKeys sent, s.trader.tracks key ≠ some none)
    (timely : ∀ key ∈ placeKeys sent, ∀ id, s.trader.tracks key = some (some id) →
      replaced s.trader key s.nowNs = some id) :
    Tracks w { s with trader := next, commands := s.commands ++ sent } := by
  have unknown_kept : ∀ key, s.trader.tracks key = some none → next.tracks key = some none := by
    intro key unknown
    have unquoted : key ∉ placeKeys sent := fun quoted => known key quoted unknown
    rcases books.others key unquoted with same | ⟨-, id, tracked, -⟩
    · rw [same, unknown]
    · rw [unknown] at tracked
      cases tracked
  refine ⟨?_, ?_, ?_, ?_, tracks.once, ?_, tracks.ended, tracks.fresh, tracks.ids⟩
  · intro o placed works
    rcases tracks.orders o placed works with ⟨command, waits, cancels⟩ | tracked | ⟨unknown, coming⟩
    · exact .inl ⟨command, List.mem_append_left _ waits, cancels⟩
    · by_cases quoted : o.key ∈ placeKeys sent
      · obtain ⟨command, member, places⟩ := mem_placeKeys.mp quoted
        have fenced := sends.behind o.key o.id (timely o.key quoted o.id tracked)
        obtain ⟨cancel, first, cancels⟩ := Fence.fenced_hit fenced member places
        exact .inl ⟨cancel, List.mem_append_right _ first, cancels⟩
      · rcases books.others o.key quoted with same | ⟨-, id, was, ⟨command, first, cancels⟩, -⟩
        · exact .inr (.inl (same.trans tracked))
        · rw [tracked] at was
          cases was
          exact .inl ⟨command, List.mem_append_right _ first, cancels⟩
    · exact .inr (.inr ⟨unknown_kept o.key unknown, coming⟩)
  · intro key member
    unfold placeKeys at member
    rw [List.filterMap_append] at member
    rcases List.mem_append.mp member with before | new
    · obtain ⟨unknown, unheard⟩ := tracks.waiting key before
      exact ⟨unknown_kept key unknown, unheard⟩
    · refine ⟨books.quoted key new, ?_⟩
      intro coming
      obtain ⟨ack, held, rfl⟩ := List.mem_map.mp coming
      exact known _ new (tracks.acks ack held).2
  · intro p member
    rcases List.mem_append.mp member with before | new
    · exact tracks.sided p before
    · exact sided p new
  · intro ack held
    obtain ⟨side, unknown⟩ := tracks.acks ack held
    exact ⟨side, unknown_kept _ unknown⟩
  · intro id key held
    have tracked := tracks.mapped id key (books.known id key held)
    by_cases quoted : key ∈ placeKeys sent
    · exact absurd held (books.forgotten key quoted id (timely key quoted id tracked) key)
    · rcases books.others key quoted with same | ⟨-, other, was, -, gone⟩
      · exact same.trans tracked
      · rw [tracked] at was
        cases was
        exact absurd held (gone key)

end Turns

section Acks

variable {w : Wiring} {s : Pair}

theorem placeAck_tracks (tracks : Tracks w s) (turn : Trader.Turn) {ack : PlaceAckMsg} {rest : List PlaceAckMsg}
    (coming : s.placeAcks = ack :: rest) :
    Tracks w { s with trader := takePlaceAck turn s.trader ack, placeAcks := rest } := by
  obtain ⟨side, unknown⟩ := tracks.acks ack (coming ▸ List.mem_cons_self)
  have once := tracks.once
  rw [coming, List.map_cons, List.nodup_cons] at once
  have told : ∀ key, (takePlaceAck turn s.trader ack).tracks key =
      if key = ack.key then some (some ack.orderId) else s.trader.tracks key :=
    takePlaceAck_tracks side turn
  have later : ∀ other ∈ rest, other.key ≠ ack.key := by
    intro other member same
    exact once.1 (same ▸ List.mem_map_of_mem member)
  refine ⟨?_, ?_, tracks.sided, ?_, once.2, ?_, tracks.ended, tracks.fresh, tracks.ids⟩
  · intro o placed works
    rcases tracks.orders o placed works with cancelled | tracked | ⟨was, own, member, same, id⟩
    · exact .inl cancelled
    · have other : o.key ≠ ack.key := by
        intro equal
        rw [equal, unknown] at tracked
        cases tracked
      exact .inr (.inl ((told _).trans ((if_neg other).trans tracked)))
    · rcases List.mem_cons.mp (coming ▸ member) with rfl | behind
      · exact .inr (.inl ((told _).trans ((if_pos same.symm).trans (by rw [id]))))
      · refine .inr (.inr ⟨(told _).trans ((if_neg ?_).trans was), own, behind, same, id⟩)
        exact same ▸ later own behind
  · intro key waits
    obtain ⟨was, unheard⟩ := tracks.waiting key waits
    rw [coming, List.map_cons, List.mem_cons, not_or] at unheard
    exact ⟨(told key).trans ((if_neg unheard.1).trans was), unheard.2⟩
  · intro other member
    obtain ⟨sided, was⟩ := tracks.acks other (coming ▸ List.mem_cons_of_mem _ member)
    exact ⟨sided, (told _).trans ((if_neg (later other member)).trans was)⟩
  · intro id key held
    dsimp only at held ⊢
    rw [takePlaceAck_ids side] at held
    rw [told]
    split at held
    · rename_i same
      cases held
      rw [if_pos rfl, same]
    · have tracked := tracks.mapped id key held
      have other : key ≠ ack.key := by
        intro equal
        rw [equal, unknown] at tracked
        cases tracked
      rw [if_neg other, tracked]

-- An order the trader forgets has ended.
theorem orderAck_tracks (tracks : Tracks w s) {ack : OrderAckMsg} {rest : List OrderAckMsg}
    (coming : s.orderAcks = ack :: rest) :
    Tracks w { s with trader := takeOrderAck s.trader ack, orderAcks := rest } := by
  have ended : ∀ other ∈ rest, ∀ id, other.orderId = some id → terminalStatus (other.status.getD "") →
      ∀ o ∈ s.orders, (o.id : ℤ) = id → ¬o.working (w.utc s.nowNs) :=
    fun other member => tracks.ended other (coming ▸ List.mem_cons_of_mem _ member)
  have fresh : ∀ other ∈ rest, ∀ id, other.orderId = some id → id < (s.nextId : ℤ) :=
    fun other member => tracks.fresh other (coming ▸ List.mem_cons_of_mem _ member)
  rcases @takeOrderAck_cases s.trader ack with idle | ⟨id, own, terminal, ⟨unmapped, forgets⟩ | ⟨key, mapped, forgets⟩⟩
  · rw [idle]
    exact ⟨tracks.orders, tracks.waiting, tracks.sided, tracks.acks, tracks.once, tracks.mapped, ended, fresh,
      tracks.ids⟩
  · rw [forgets]
    refine ⟨tracks.orders, tracks.waiting, tracks.sided, tracks.acks, tracks.once, ?_, ended, fresh, tracks.ids⟩
    intro other key held
    dsimp only at held
    rw [HashMap.get_remove] at held
    split at held
    · cases held
    · exact tracks.mapped other key held
  · have tracked := tracks.mapped id key mapped
    have told : ∀ other,
        (takeOrderAck s.trader ack).tracks other = if other = key then none else s.trader.tracks other := by
      intro other
      unfold TraderState.tracks
      rw [forgets, HashMap.get_remove]
      split <;> rfl
    have unknown_kept : ∀ other, s.trader.tracks other = some none →
        (takeOrderAck s.trader ack).tracks other = some none := by
      intro other unknown
      have apart : other ≠ key := by
        intro equal
        rw [equal, tracked] at unknown
        cases unknown
      rw [told, if_neg apart, unknown]
    refine ⟨?_, ?_, tracks.sided, ?_, tracks.once, ?_, ended, fresh, tracks.ids⟩
    · intro o placed works
      rcases tracks.orders o placed works with cancelled | known | ⟨unknown, later⟩
      · exact .inl cancelled
      · have apart : o.key ≠ key := by
          intro equal
          rw [equal, tracked] at known
          have same : id = o.id := Option.some.inj (Option.some.inj known)
          exact tracks.ended ack (coming ▸ List.mem_cons_self) id own terminal o placed same.symm works
        exact .inr (.inl ((told _).trans ((if_neg apart).trans known)))
      · exact .inr (.inr ⟨unknown_kept _ unknown, later⟩)
    · intro other waits
      obtain ⟨unknown, unheard⟩ := tracks.waiting other waits
      exact ⟨unknown_kept other unknown, unheard⟩
    · intro other member
      obtain ⟨sided, unknown⟩ := tracks.acks other member
      exact ⟨sided, unknown_kept _ unknown⟩
    · intro other quote held
      dsimp only at held ⊢
      have mapped_before : s.trader.orderidToKey.get other = some quote ∧ other ≠ id := by
        rw [forgets, HashMap.get_remove] at held
        split at held
        · cases held
        · exact ⟨held, ‹_›⟩
      have known := tracks.mapped other quote mapped_before.1
      have apart : quote ≠ key := by
        intro equal
        rw [equal, tracked] at known
        exact mapped_before.2 (Option.some.inj (Option.some.inj known)).symm
      rw [told, if_neg apart, known]

end Acks

section Broker

variable {w : Wiring} {s : Pair}

-- The trader and the acks stay, and of the orders and commands nothing new is there.
theorem tracks_shrunk (tracks : Tracks w s) {next : Pair} (trader : next.trader = s.trader)
    (placeAcks : next.placeAcks = s.placeAcks) (orderAcks : next.orderAcks = s.orderAcks)
    (nextId : next.nextId = s.nextId) (commands : ∀ command ∈ next.commands, command ∈ s.commands)
    (orders : ∀ o ∈ next.orders, ∃ before ∈ s.orders, o.id = before.id ∧ o.key = before.key ∧
      (o.working (w.utc next.nowNs) → before.working (w.utc s.nowNs)))
    (cancels : ∀ o ∈ next.orders, o.working (w.utc next.nowNs) → (∃ command ∈ s.commands, CancelsOrder o.id command) →
      ∃ command ∈ next.commands, CancelsOrder o.id command) : Tracks w next := by
  refine ⟨?_, ?_, ?_, ?_, ?_, ?_, ?_, ?_, ?_⟩
  · intro o placed works
    obtain ⟨before, was, id, key, worked⟩ := orders o placed
    rw [trader, placeAcks, key, id]
    rcases tracks.orders before was (worked works) with cancelled | tracked
    · exact .inl (id ▸ cancels o placed works (id ▸ cancelled))
    · exact .inr tracked
  · intro key waits
    obtain ⟨command, member, places⟩ := mem_placeKeys.mp waits
    rw [trader, placeAcks]
    exact tracks.waiting key (mem_placeKeys.mpr ⟨command, commands command member, places⟩)
  · intro p member
    exact tracks.sided p (commands _ member)
  · rw [placeAcks, trader]
    exact tracks.acks
  · rw [placeAcks]
    exact tracks.once
  · rw [trader]
    exact tracks.mapped
  · rw [orderAcks]
    intro ack member id own terminal o placed same works
    obtain ⟨before, was, named, -, worked⟩ := orders o placed
    exact tracks.ended ack member id own terminal before was (named ▸ same) (worked works)
  · rw [orderAcks, nextId]
    exact tracks.fresh
  · intro o placed
    obtain ⟨before, was, named, -⟩ := orders o placed
    rw [named, nextId]
    exact tracks.ids before was

theorem orders_kept {f : PlacedOrder → PlacedOrder} {now : UtcTime} (named : ∀ o, (f o).id = o.id ∧ (f o).key = o.key)
    (works : ∀ o, (f o).working now → o.working (w.utc s.nowNs)) :
    ∀ o ∈ s.orders.map f, ∃ before ∈ s.orders, o.id = before.id ∧ o.key = before.key ∧
      (o.working now → before.working (w.utc s.nowNs)) := by
  intro o member
  obtain ⟨before, was, rfl⟩ := List.mem_map.mp member
  exact ⟨before, was, (named before).1, (named before).2, works before⟩

theorem behind_head (tracks : Tracks w s) {p : PlaceOrder} {rest : List Command}
    (waiting : s.commands = .place p :: rest) (daemon : DaemonState) : Tracks w { s with daemon, commands := rest } := by
  refine tracks_shrunk tracks rfl rfl rfl rfl (fun command member => waiting ▸ List.mem_cons_of_mem _ member)
    (fun o member => ⟨o, member, rfl, rfl, id⟩) ?_
  intro o _ _ cancelled
  obtain ⟨command, member, cancels⟩ := cancelled
  rcases List.mem_cons.mp (waiting ▸ member) with rfl | later
  · obtain ⟨c, different, -⟩ := cancels
    cases different
  · exact ⟨command, later, cancels⟩

theorem takeCommand_tracks (held : OneEach w s) (tracks : Tracks w s) : Tracks w (takeCommand w s) := by
  unfold takeCommand
  split
  · rename_i p rest idle waiting
    dsimp only
    split
    · exact tracks_shrunk tracks rfl rfl rfl rfl (fun _ member => member) (fun o member => ⟨o, member, rfl, rfl, id⟩)
        fun _ _ _ cancelled => cancelled
    · exact behind_head tracks waiting _
  · rename_i c rest idle waiting
    rw [daemonStep_cancel idle]
    dsimp only
    refine tracks_shrunk tracks rfl rfl rfl rfl (fun command member => waiting ▸ List.mem_cons_of_mem _ member)
      (orders_kept (fun o => ⟨endedBy_id _ o, endedBy_key _ o⟩) fun o works => (endedBy_working works).1) ?_
    intro o member works cancelled
    obtain ⟨before, there, rfl⟩ := List.mem_map.mp member
    obtain ⟨-, spared⟩ := endedBy_working works
    rw [handleCancel_live (placed_live held there)] at spared
    obtain ⟨command, waits, cancels⟩ := cancelled
    rcases List.mem_cons.mp (waiting ▸ waits) with rfl | later
    · obtain ⟨_, same, own⟩ := cancels
      cases same
      rw [endedBy_id] at own
      rw [own] at spared
      exact absurd (List.mem_singleton_self _) spared
    · exact ⟨command, later, cancels⟩
  · exact tracks

-- The order placed carries an id nothing on the way names, and its ack goes out.
theorem placed_tracks_ack (held : OneEach w s) (tracks : Tracks w s) {p : PlaceOrder} {rest : List Command}
    (waiting : s.commands = .place p :: rest) (daemon : DaemonState) (goodTill : Option UtcTime) :
    Tracks w { s with
      daemon
      commands := rest
      orders := s.orders ++ [⟨s.nextId, p.key, goodTill, false⟩]
      nextId := s.nextId + 1
      placeAcks := s.placeAcks ++ [placeAck p s.nextId] } := by
  have behind := behind_head tracks waiting daemon
  have own : p.key ∈ placeKeys s.commands :=
    mem_placeKeys.mpr ⟨_, waiting ▸ List.mem_cons_self, p, rfl, rfl⟩
  obtain ⟨unknown, unheard⟩ := tracks.waiting p.key own
  have apart := held.apart
  rw [waiting] at apart
  have last : p.key ∉ placeKeys rest := (List.nodup_cons.mp apart).1
  have acked : (placeAck p s.nextId).key = p.key := rfl
  refine ⟨?_, ?_, behind.sided, ?_, ?_, behind.mapped, ?_, ?_, ?_⟩
  · intro o member works
    rcases List.mem_append.mp member with old | new
    · rcases behind.orders o old works with cancelled | known | ⟨missing, ack, coming, same, id⟩
      · exact .inl cancelled
      · exact .inr (.inl known)
      · exact .inr (.inr ⟨missing, ack, List.mem_append_left _ coming, same, id⟩)
    · rw [List.mem_singleton.mp new]
      exact .inr (.inr ⟨unknown, _, List.mem_append_right _ (List.mem_singleton_self _), acked, rfl⟩)
  · intro key waits
    obtain ⟨missing, elsewhere⟩ := behind.waiting key waits
    refine ⟨missing, ?_⟩
    dsimp only
    rw [List.map_append, List.mem_append, not_or]
    refine ⟨elsewhere, fun same => last ?_⟩
    rw [List.map_singleton, List.mem_singleton, acked] at same
    exact same ▸ waits
  · intro ack member
    rcases List.mem_append.mp member with old | new
    · exact tracks.acks ack old
    · rw [List.mem_singleton.mp new]
      exact ⟨tracks.sided p (waiting ▸ List.mem_cons_self), unknown⟩
  · dsimp only
    rw [List.map_append, List.nodup_append]
    refine ⟨tracks.once, List.nodup_singleton _, ?_⟩
    intro a before b new same
    rw [List.map_singleton, List.mem_singleton, acked] at new
    exact unheard (new ▸ same ▸ before)
  · intro ack member id named terminal o placed same
    rcases List.mem_append.mp placed with old | new
    · exact tracks.ended ack member id named terminal o old same
    · have below := tracks.fresh ack member id named
      rw [List.mem_singleton.mp new] at same
      exact absurd below (same ▸ lt_irrefl _)
  · intro ack member id named
    have below := tracks.fresh ack member id named
    push_cast
    exact below.trans (lt_add_one _)
  · intro o placed
    rcases List.mem_append.mp placed with old | new
    · exact (tracks.ids o old).trans (Nat.lt_succ_self _)
    · rw [List.mem_singleton.mp new]
      exact Nat.lt_succ_self _

theorem sendPlace_tracks (held : OneEach w s) (tracks : Tracks w s) (refused : Bool) : Tracks w (sendPlace s refused) := by
  unfold sendPlace
  split
  · rename_i req p rest inFlight waiting
    dsimp only
    split
    · exact behind_head tracks waiting _
    · exact placed_tracks_ack held tracks waiting _ _
  · exact tracks

theorem report_tracks (tracks : Tracks w s) (id : OrderId) (status : String) : Tracks w (report w s id status) := by
  unfold report
  dsimp only
  split
  · exact tracks
  · rename_i allowed
    rw [not_or, not_and] at allowed
    obtain ⟨placed, settled⟩ := allowed
    obtain ⟨first, member⟩ := List.exists_mem_of_ne_nil _ placed
    obtain ⟨held, own⟩ := List.mem_filter.mp member
    have below : id < s.nextId := of_decide_eq_true own ▸ tracks.ids first held
    refine ⟨tracks.orders, tracks.waiting, tracks.sided, tracks.acks, tracks.once, tracks.mapped, ?_, ?_, tracks.ids⟩
    · intro ack reported other named terminal o there same works
      rcases List.mem_append.mp reported with old | new
      · exact tracks.ended ack old other named terminal o there same works
      · rw [List.mem_singleton.mp new] at named terminal
        cases named
        refine settled terminal ?_
        have mine : o ∈ s.orders.filter (·.id = id) :=
          List.mem_filter.mpr ⟨there, decide_eq_true (Int.natCast_inj.mp same)⟩
        exact List.any_eq_true.mpr ⟨o, mine, works⟩
    · intro ack reported other named
      rcases List.mem_append.mp reported with old | new
      · exact tracks.fresh ack old other named
      · rw [List.mem_singleton.mp new] at named
        cases named
        exact Int.ofNat_lt.mpr below

end Broker

section Runs

variable {quoting : Quoting} {w : Wiring} {s : Pair}

theorem tracks_step (held : OneEach w s) (tracks : Tracks w s) (input : PairInput)
    (timely : QuotesTimely quoting w s input) : Tracks w (pairStep quoting w s input).1 := by
  cases input with
  | trader wallNs placesOrders input apart =>
    refine turn_tracks tracks (@traderStep_books quoting (s.turn wallNs placesOrders) s.trader input apart)
      (@traderStep_sends quoting s.trader (s.turn wallNs placesOrders) input apart)
      (fun p sent => traderStep_sided apart sent) ?_ ?_
    · intro key quoted
      obtain ⟨_, sent, p, rfl, rfl⟩ := mem_placeKeys.mp quoted
      exact timely_known timely sent
    · intro key quoted id tracked
      obtain ⟨_, sent, p, rfl, rfl⟩ := mem_placeKeys.mp quoted
      exact timely_replaced timely sent tracked
  | placeAcked wallNs =>
    simp only [pairStep]
    split
    · exact tracks
    · rename_i coming
      exact placeAck_tracks tracks _ coming
  | orderAcked =>
    simp only [pairStep]
    split
    · exact tracks
    · rename_i coming
      exact orderAck_tracks tracks coming
  | commandTaken => exact takeCommand_tracks held tracks
  | placeSent refused => exact sendPlace_tracks held tracks refused
  | daemon e apart =>
    exact tracks_shrunk tracks rfl rfl rfl rfl (fun _ member => member)
      (orders_kept (fun o => ⟨endedBy_id _ o, endedBy_key _ o⟩) fun o works => (endedBy_working works).1)
      fun _ _ _ cancelled => cancelled
  | ended id =>
    refine tracks_shrunk tracks rfl rfl rfl rfl (fun _ member => member) (orders_kept ?_ fun _ => closed_working)
      fun _ _ _ cancelled => cancelled
    intro o
    split <;> exact ⟨rfl, rfl⟩
  | reported id status => exact report_tracks tracks id status
  | elapsed ns =>
    exact tracks_shrunk tracks rfl rfl rfl rfl (fun _ member => member)
      (fun o member => ⟨o, member, rfl, rfl, elapsed_working⟩) fun _ _ _ cancelled => cancelled

theorem start_tracks {trader : TraderState} (unmapped : ∀ id, trader.orderidToKey.get id = none) (w : Wiring)
    (runtime : Runtime) (nextId : OrderId) (nowNs : ℕ) : Tracks w (.start trader runtime nextId nowNs) := by
  refine ⟨?_, ?_, ?_, ?_, List.nodup_nil, ?_, ?_, ?_, ?_⟩
  · intro o placed
    cases placed
  · intro key waits
    cases waits
  · intro p waits
    cases waits
  · intro ack coming
    cases coming
  · intro id key held
    have nothing := unmapped id
    rw [show trader.orderidToKey.get id = some key from held] at nothing
    cases nothing
  · intro ack coming
    cases coming
  · intro ack coming
    cases coming
  · intro o placed
    cases placed

-- A trader that quotes again in time keeps its record true and never two orders at work.
theorem timely_run (quoting : Quoting) (w : Wiring) {trader : TraderState}
    (unmapped : ∀ id, trader.orderidToKey.get id = none) (runtime : Runtime) (nextId : OrderId) (nowNs : ℕ)
    (inputs : List PairInput)
    (timely : Machine.Along (pairStep quoting w) (QuotesTimely quoting w) (.start trader runtime nextId nowNs) inputs) :
    OneQuote w (Machine.after (pairStep quoting w) (.start trader runtime nextId nowNs) inputs) ∧
      Tracks w (Machine.after (pairStep quoting w) (.start trader runtime nextId nowNs) inputs) := by
  obtain ⟨one, tracks⟩ := Machine.reached (fun s => OneEach w s ∧ Tracks w s)
    (fun _ input timely held =>
      ⟨oneEach_step held.1 input (timely_clear held.2 timely), tracks_step held.1 held.2 input timely⟩)
    ⟨start_oneEach w trader runtime nextId nowNs, start_tracks unmapped w runtime nextId nowNs⟩ timely
  exact ⟨one.one, tracks⟩

end Runs

end Corsair.Daemon
