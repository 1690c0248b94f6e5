import Corsair.Trader.Gates
import Corsair.Trader.Interleaved

namespace Corsair.Trader

open Wire Machine

-- The price and the time of the place the trader believes to rest.
def TraderState.lastQuote (s : TraderState) (key : OrderKey) : Option (ℚ × ℕ) :=
  (s.ourOrders.get key).map fun order => (order.price, order.placeMonotonicNs)

-- No order_ack of the key's order, and no staleness cancel of it. A place_ack may
-- name the order: it keeps price and time.
def Untouched (quoting : Quoting) (key : OrderKey) (s : TraderState) (input : Turn × TraderInput) : Prop :=
  match input.2 with
  | .event body => ∀ ack, arrivalOf body = .orderAck ack → ack.orderId.bind s.orderidToKey.get ≠ some key
  | .stalenessLoop => input.1.placesOrders → key ∉ (staleOrders quoting s).map Prod.fst

section Decisions

variable {quoting : Quoting} {s : TraderState} {tick : TickMsg} {turn : Turn} {d : Decision}

-- A side that is quoted again has been through the dead band and the cooldown.
theorem decideSide_waits {theo bid ask : ℚ} {gates : RiskGates} {now : ℕ} {side : Side} {existing : OurOrder}
    (decided : decideSide s tick theo bid ask gates now side = some d)
    (resting : s.ourOrders.get (orderKey tick side) = some existing) : keepsQuote s existing d.price now = false := by
  unfold decideSide at decided
  obtain ⟨target, -, gated⟩ := Option.bind_eq_some_iff.mp decided
  clear decided
  dsimp only at gated
  unfold orderKey at resting
  split_ifs at gated
  · cases gated
  · rw [resting] at gated
    dsimp only at gated
    split_ifs at gated with kept
    · cases gated
    · obtain rfl := Option.some.inj gated
      exact Bool.eq_false_iff.mpr kept

theorem decided_waits {now : ℕ} {existing : OurOrder} (member : d ∈ decideOnTick quoting s tick now)
    (resting : s.ourOrders.get (orderKey tick d.side) = some existing) : keepsQuote s existing d.price now = false := by
  obtain ⟨surface, tte, theo, -, decided⟩ := decideOnTick_quotable member
  exact decideSide_waits decided resting

theorem keepsQuote_waits {existing : OurOrder} {price : ℚ} {now : ℕ} (waits : keepsQuote s existing price now = false) :
    existing.placeMonotonicNs + cooldownNs ≤ now ∧
      (|price - existing.price| < s.tickSize → existing.placeMonotonicNs + 3500000000 < now) := by
  unfold keepsQuote at waits
  simp only [decide_eq_false_iff_not, not_or, not_and, not_le, not_lt] at waits
  obtain ⟨band, cooled⟩ := waits
  refine ⟨?_, ?_⟩
  · unfold cooldownNs at *
    omega
  · intro near
    have aged := band (by simpa [deadBandTicks] using near)
    unfold seconds gtdLifetimeS gtdRefreshLeadS at aged
    rw [lt_div_iff₀ (by norm_num)] at aged
    have long : (3500000000 : ℚ) < ((now - existing.placeMonotonicNs : ℕ) : ℚ) := by linarith
    have long_ns : 3500000000 < now - existing.placeMonotonicNs := by exact_mod_cast long
    omega

theorem placed_others {decisions : List Decision} {key : OrderKey}
    (absent : key ∉ decisions.map (orderKey tick ·.side)) (s : TraderState) :
    (decisions.foldl (trackPlaced tick turn) s).ourOrders.get key = s.ourOrders.get key := by
  induction decisions generalizing s with
  | nil => rfl
  | cons first rest next =>
    rw [List.map_cons, List.mem_cons, not_or] at absent
    rw [List.foldl_cons, next absent.2, trackPlaced, HashMap.get_set, if_neg absent.1]

theorem placed_own {decisions : List Decision} (once : (decisions.map Decision.side).Nodup) (member : d ∈ decisions)
    (s : TraderState) : (decisions.foldl (trackPlaced tick turn) s).ourOrders.get (orderKey tick d.side) =
      some ⟨d.price, turn.nowMonotonicNs, none⟩ := by
  induction decisions generalizing s with
  | nil => cases member
  | cons first rest next =>
    rw [List.map_cons, List.nodup_cons] at once
    rw [List.foldl_cons]
    rcases List.mem_cons.mp member with rfl | later
    · have absent : orderKey tick d.side ∉ rest.map (orderKey tick ·.side) := by
        intro given
        obtain ⟨other, held, same⟩ := List.mem_map.mp given
        exact once.1 (List.mem_map.mpr ⟨other, held, orderKey_side same⟩)
      rw [placed_others absent, trackPlaced, HashMap.get_set, if_pos rfl]
    · exact next once.2 later _

theorem sent_places {command : Command} {key : OrderKey} (sent : command ∈ (onTick quoting turn s tick).2)
    (places : PlacesFor key command) :
    ∃ d ∈ decideOnTick quoting (recordTick s tick) tick turn.nowMonotonicNs,
      command = .place (placeFor tick turn d) ∧ orderKey tick d.side = key ∧
        (onTick quoting turn s tick).1.ourOrders.get key = some ⟨d.price, turn.nowMonotonicNs, none⟩ := by
  unfold onTick at sent ⊢
  dsimp only at sent ⊢
  split at sent
  · cases sent
  · rename_i enabled
    rw [if_neg enabled]
    obtain ⟨d, decided, made⟩ := List.mem_flatMap.mp sent
    rcases List.mem_append.mp made with cancel | place
    · exact absurd places (cancels_unplaced _ _ key command cancel)
    · obtain rfl := List.mem_singleton.mp place
      obtain ⟨p, same, own⟩ := places
      cases same
      rw [placeFor_key] at own
      refine ⟨d, decided, rfl, own, ?_⟩
      rw [← own]
      exact placed_own (decided_sides _) decided _

end Decisions

section Run

variable {quoting : Quoting} {s : TraderState} {input : Turn × TraderInput} {key : OrderKey}

theorem takePlaceAck_quote (turn : Turn) (ack : PlaceAckMsg) {quote : ℚ × ℕ} (held : s.lastQuote key = some quote) :
    (takePlaceAck turn s ack).lastQuote key = some quote := by
  unfold takePlaceAck
  dsimp only
  split
  · exact held
  · rename_i side _
    unfold TraderState.lastQuote at *
    rw [HashMap.get_set]
    split
    · rename_i own
      rw [← own]
      obtain ⟨order, found, rfl⟩ := Option.map_eq_some_iff.mp held
      rw [found]
      rfl
    · exact held

theorem takeOrderAck_quote {ack : OrderAckMsg} (other : ack.orderId.bind s.orderidToKey.get ≠ some key) :
    (takeOrderAck s ack).lastQuote key = s.lastQuote key := by
  rcases @takeOrderAck_cases s ack with same | ⟨id, known, _, ⟨_, taken⟩ | ⟨own, mapped, taken⟩⟩
  · rw [same]
  · rw [taken]
    rfl
  · rw [taken]
    unfold TraderState.lastQuote
    rw [HashMap.get_remove, if_neg]
    rintro rfl
    exact other (by rw [known]; exact mapped)

theorem onTick_quote {turn : Turn} {tick : TickMsg}
    (silent : ∀ command ∈ (onTick quoting turn s tick).2, ¬PlacesFor key command) :
    (onTick quoting turn s tick).1.lastQuote key = s.lastQuote key := by
  unfold onTick at *
  dsimp only at *
  split
  · rfl
  · rename_i enabled
    rw [if_neg enabled] at silent
    have absent : key ∉ (decideOnTick quoting (recordTick s tick) tick turn.nowMonotonicNs).map (orderKey tick ·.side) := by
      rw [← @commandsFor_keys turn, mem_placeKeys]
      rintro ⟨command, sent, places⟩
      exact silent command sent places
    unfold TraderState.lastQuote
    rw [placed_others absent]
    rfl

theorem step_quote (untouched : Untouched quoting key s input)
    (silent : ∀ command ∈ (traderStep quoting s input).2, ¬PlacesFor key command) {quote : ℚ × ℕ}
    (held : s.lastQuote key = some quote) : (traderStep quoting s input).1.lastQuote key = some quote := by
  obtain ⟨turn, event | _⟩ := input
  · have effect := @arrivalOf_effect quoting turn event s
    unfold traderStep at *
    dsimp only at *
    cases arrival : arrivalOf event with
    | tick tick =>
      rw [arrival] at effect
      rw [effect] at silent ⊢
      rw [onTick_quote silent, held]
    | placeAck ack =>
      rw [arrival] at effect
      rw [effect]
      exact takePlaceAck_quote turn ack held
    | orderAck ack =>
      rw [arrival] at effect
      rw [effect, takeOrderAck_quote (untouched ack arrival), held]
    | other =>
      rw [arrival] at effect
      unfold TraderState.lastQuote at *
      rw [effect.1, held]
  · unfold traderStep stalenessCheck
    dsimp only
    split
    · exact held
    · rename_i enabled
      unfold TraderState.lastQuote at *
      rw [dropped_get, if_neg (untouched (not_not.mp enabled)), held]

theorem run_quote {inputs : List (Turn × TraderInput)} (untouched : Along (traderStep quoting) (Untouched quoting key) s inputs)
    (silent : ∀ command ∈ emitted (traderStep quoting) s inputs, ¬PlacesFor key command) {quote : ℚ × ℕ}
    (held : s.lastQuote key = some quote) : (after (traderStep quoting) s inputs).lastQuote key = some quote := by
  induction inputs generalizing s with
  | nil => exact held
  | cons input rest next =>
    rw [emitted, List.forall_mem_append] at silent
    exact next untouched.2 silent.2 (step_quote untouched.1 silent.1 held)

theorem staleness_unplaced (turn : Turn) (p : PlaceOrder) :
    .place p ∉ (traderStep quoting s (turn, .stalenessLoop)).2 := by
  intro sent
  unfold traderStep stalenessCheck at sent
  dsimp only at sent
  split at sent
  · cases sent
  · exact absurd ⟨p, rfl, rfl⟩ (cancels_unplaced _ _ p.key _ sent)

-- A place answers a tick frame.
theorem place_answers {p : PlaceOrder} (sent : .place p ∈ (traderStep quoting s input).2) :
    ∃ body tick, input.2 = .event body ∧ arrivalOf body = .tick tick ∧
      traderStep quoting s input = onTick quoting input.1 s tick := by
  obtain ⟨turn, body | _⟩ := input
  · unfold traderStep at *
    dsimp only at *
    cases decoded : decodeGeneric body with
    | error e =>
      rw [processEvent_undecoded decoded] at sent
      cases sent
    | ok generic =>
      by_cases kind : generic.msgType = "tick"
      · unfold processEvent at sent ⊢
        simp only [decoded, kind] at sent ⊢
        cases ticked : decodeTick body generic.tsNs with
        | error e =>
          rw [ticked] at sent
          cases sent
        | ok tick =>
          refine ⟨body, tick, rfl, ?_, rfl⟩
          unfold arrivalOf
          simp only [decoded, kind, ticked]
          rfl
      · have effect := @processEvent_effect quoting turn s body generic decoded
        generalize generic.msgType = other at kind effect
        generalize processEvent quoting turn s body = result at effect sent ⊢
        cases effect with
        | ticked tick => exact absurd rfl kind
        | _ => cases sent
  · exact absurd sent (staleness_unplaced turn p)

theorem placed_quote {p : PlaceOrder} (sent : .place p ∈ (traderStep quoting s input).2) :
    (traderStep quoting s input).1.lastQuote p.key = some (p.price, input.1.nowMonotonicNs) ∧
      ∀ order, s.ourOrders.get p.key = some order → keepsQuote s order p.price input.1.nowMonotonicNs = false := by
  obtain ⟨-, tick, -, -, ticked⟩ := place_answers sent
  rw [ticked] at sent ⊢
  obtain ⟨d, decided, same, own, recorded⟩ := sent_places sent ⟨p, rfl, rfl⟩
  cases same
  refine ⟨?_, ?_⟩
  · unfold TraderState.lastQuote
    rw [recorded]
    rfl
  · intro order resting
    rw [← own] at resting
    exact @decided_waits quoting (recordTick s tick) tick d _ order decided resting

theorem place_once (turn : Turn) (input : TraderInput) : (placeKeys (traderStep quoting s (turn, input)).2).Nodup := by
  by_cases places : ∃ p, Command.place p ∈ (traderStep quoting s (turn, input)).2
  · obtain ⟨p, sent⟩ := places
    obtain ⟨-, tick, -, -, ticked⟩ := place_answers sent
    rw [ticked]
    exact (onTick_sends tick).once
  · apply (@sends_none s _ ?_ 0).once
    rintro key command sent ⟨p, rfl, -⟩
    exact places ⟨p, sent⟩

end Run

-- `first` and `second` are turns with no place of the key between them. The clock runs
-- forward, where the difference of two of its readings is the one the code takes.
theorem quotes_throttled (quoting : Quoting) (s : TraderState) (first second : Turn × TraderInput)
    (between : List (Turn × TraderInput)) (key : OrderKey) (p q : PlaceOrder)
    (placed : .place p ∈ (traderStep quoting s first).2) (again : .place q ∈
      (traderStep quoting (after (traderStep quoting) s (first :: between)) second).2)
    (keys : p.key = key ∧ q.key = key)
    (consecutive : ∀ command ∈ emitted (traderStep quoting) (traderStep quoting s first).1 between, ¬PlacesFor key command)
    (untouched : Along (traderStep quoting) (Untouched quoting key) (traderStep quoting s first).1 between) :
    first.1.nowMonotonicNs + 250000000 ≤ second.1.nowMonotonicNs ∧
      (|q.price - p.price| < (after (traderStep quoting) s (first :: between)).tickSize →
        first.1.nowMonotonicNs + 3500000000 < second.1.nowMonotonicNs) ∧
      (placeKeys (traderStep quoting s first).2).Nodup := by
  obtain ⟨rfl, same⟩ := keys
  have recorded := run_quote untouched consecutive (placed_quote placed).1
  obtain ⟨order, resting, quote⟩ := Option.map_eq_some_iff.mp recorded
  obtain ⟨price, time⟩ := Prod.mk.inj quote
  have waits := keepsQuote_waits ((placed_quote again).2 order (same ▸ resting))
  rw [price, time] at waits
  exact ⟨waits.1, waits.2, place_once _ _⟩

section Requoted

def putTickBody : Body F64 :=
  [("type", .str "tick"), ("strike", .float (.finite 6)), ("expiry", .str "20260826"), ("right", .str "P"),
    ("bid", .float (.finite (1/5))), ("ask", .float (.finite (1/4))), ("bid_size", .int 10), ("ask_size", .int 10)]

def putTicked (nowMonotonicNs wallNs : ℕ) : Turn × TraderInput := (⟨nowMonotonicNs, wallNs, true⟩, .event putTickBody)

def staleLoop (nowMonotonicNs : ℕ) : Turn × TraderInput := (⟨nowMonotonicNs, 1, true⟩, .stalenessLoop)

def soldPut (wallNs : ℕ) : PlaceOrder := ⟨wallNs, 6, "20260826", "P", "SELL", 1, 481/2000, "corsair_trader_rust"⟩

end Requoted

-- The put is quoted again at the same price 3.6 s later, with a staleness check between.
theorem refresh_throttled :
    .place (soldPut 2) ∈ (traderStep sviQuoting (after (traderStep sviQuoting) (longTrader 0)
      [putTicked 1000000000 1, staleLoop 2000000000]) (putTicked 4600000000 2)).2 ∧
    1000000000 + 3500000000 < 4600000000 := by
  have first : .place (soldPut 1) ∈ (traderStep sviQuoting (longTrader 0) (putTicked 1000000000 1)).2 := by
    decide +kernel
  have second : .place (soldPut 2) ∈ (traderStep sviQuoting (after (traderStep sviQuoting) (longTrader 0)
      [putTicked 1000000000 1, staleLoop 2000000000]) (putTicked 4600000000 2)).2 := by decide +kernel
  have silent : emitted (traderStep sviQuoting) (traderStep sviQuoting (longTrader 0) (putTicked 1000000000 1)).1
      [staleLoop 2000000000] = [] := by decide +kernel
  refine ⟨second, (quotes_throttled sviQuoting (longTrader 0) (putTicked 1000000000 1) (putTicked 4600000000 2)
    [staleLoop 2000000000] ⟨6, "20260826", 'P', 'S'⟩ (soldPut 1) (soldPut 2) first second (by decide +kernel)
    ?_ ?_).2.1 ?_⟩
  · intro command sent
    rw [silent] at sent
    cases sent
  · refine ⟨?_, trivial⟩
    intro _
    decide +kernel
  · decide +kernel

end Corsair.Trader
