import Corsair.Daemon.CommandWire
import Corsair.Trader.Replace

namespace Corsair.Daemon

open BrokerApi MarketData Trader Wire

-- An order at the exchange, placed for a quote of the trader.
structure PlacedOrder where
  id : OrderId
  key : OrderKey
  goodTill : Option UtcTime
  closed : Bool
  deriving DecidableEq

-- Neither cancelled nor filled nor past the good-till time handle_place gave it.
def PlacedOrder.working (nowUtc : UtcTime) (o : PlacedOrder) : Bool := !o.closed && o.goodTill.all (nowUtc ≤ ·)

def PlacedOrder.endedBy (calls : List Call) (o : PlacedOrder) : PlacedOrder :=
  if .trader (.cancelOrder o.id) ∈ calls ∨ .cancelResting o.id ∈ calls then { o with closed := true } else o

-- The two processes and what is on the way between them, the oldest first. The
-- place the broker is handling stays at the head of the commands until it is sent.
structure Pair where
  trader : TraderState
  daemon : DaemonState
  commands : List Command
  placeAcks : List PlaceAckMsg
  orderAcks : List OrderAckMsg
  orders : List PlacedOrder
  nextId : OrderId
  nowNs : ℕ

def Pair.start (trader : TraderState) (runtime : Runtime) (nextId : OrderId) (nowNs : ℕ) : Pair where
  trader := trader
  daemon := .start runtime
  commands := []
  placeAcks := []
  orderAcks := []
  orders := []
  nextId := nextId
  nowNs := nowNs

def DaemonEvent.isCommand : DaemonEvent → Bool
  | .placeTaken _ _ | .placeSent | .cancel _ => true
  | _ => false

inductive PairInput where
  | trader (wallNs : ℕ) (placesOrders : Bool) (input : TraderInput) (apart : ¬IsAck input)
  | placeAcked (wallNs : ℕ)
  | orderAcked
  | commandTaken
  | placeSent (refused : Bool)
  | daemon (e : DaemonEvent) (apart : e.isCommand = false)
  | ended (id : OrderId)
  | reported (id : OrderId) (status : String)
  | elapsed (ns : ℕ)

-- What the broker reads of a place the trader sends, what it formats, and the UTC
-- time at zero of the clock.
structure Wiring where
  reads : PlaceOrder → Option PlaceOrderCmd
  formats : PlaceClock
  epoch : UtcTime

def Wiring.utc (w : Wiring) (nowNs : ℕ) : UtcTime := w.epoch + nowNs

def placeAck (p : PlaceOrder) (id : OrderId) : PlaceAckMsg :=
  ⟨id, p.strike, p.expiry, p.right, p.side, p.price⟩

section Steps

variable (quoting : Quoting) (w : Wiring) (s : Pair)

def Pair.turn (wallNs : ℕ) (placesOrders : Bool) : Trader.Turn := ⟨s.nowNs, wallNs, placesOrders⟩

def takeCommand : Pair :=
  match s.daemon.inFlight, s.commands with
  | none, .place p :: rest =>
    let daemon := (daemonStep s.daemon (.placeTaken (w.reads p) { w.formats with nowUtc := w.utc s.nowNs })).1
    { s with daemon, commands := if daemon.inFlight.isSome then s.commands else rest }
  | none, .cancel c :: rest =>
    let (daemon, calls) := daemonStep s.daemon (.cancel (some ⟨c.orderId.toNat⟩))
    { s with daemon, commands := rest, orders := s.orders.map (·.endedBy calls) }
  | _, _ => s

def sendPlace (refused : Bool) : Pair :=
  match s.daemon.inFlight, s.commands with
  | some req, .place p :: rest =>
    let sent := { s with daemon := (daemonStep s.daemon .placeSent).1, commands := rest }
    if refused then sent
    else { sent with
      orders := s.orders ++ [⟨s.nextId, p.key, req.gtdUntilUtc, false⟩]
      nextId := s.nextId + 1
      placeAcks := s.placeAcks ++ [placeAck p s.nextId] }
  | _, _ => s

-- The broker reports on orders it has placed, and a terminal status once one has ended.
def report (id : OrderId) (status : String) : Pair :=
  let own := s.orders.filter (·.id = id)
  if own = [] ∨ (terminalStatus status ∧ own.any (·.working (w.utc s.nowNs))) then s
  else { s with orderAcks := s.orderAcks ++ [⟨some id, some status⟩] }

def pairStep : PairInput → Pair × List Command
  | .trader wallNs placesOrders input _ =>
    let (trader, sent) := traderStep quoting s.trader (s.turn wallNs placesOrders, input)
    ({ s with trader, commands := s.commands ++ sent }, sent)
  | .placeAcked wallNs => match s.placeAcks with
    | [] => (s, [])
    | ack :: rest => ({ s with trader := takePlaceAck (s.turn wallNs true) s.trader ack, placeAcks := rest }, [])
  | .orderAcked => match s.orderAcks with
    | [] => (s, [])
    | ack :: rest => ({ s with trader := takeOrderAck s.trader ack, orderAcks := rest }, [])
  | .commandTaken => (takeCommand w s, [])
  | .placeSent refused => (sendPlace s refused, [])
  | .daemon e _ =>
    let (daemon, calls) := daemonStep s.daemon e
    ({ s with daemon, orders := s.orders.map (·.endedBy calls) }, [])
  | .ended id =>
    ({ s with orders := s.orders.map fun o => if o.id = id then { o with closed := true } else o }, [])
  | .reported id status => (report w s id status, [])
  | .elapsed ns => ({ s with nowNs := s.nowNs + ns }, [])

def OneQuote : Prop :=
  ∀ key : OrderKey, s.orders.countP (fun o => o.key = key ∧ o.working (w.utc s.nowNs)) ≤ 1

-- Quoting the key now leaves no second order of it at work: no earlier place of it
-- is still to be handled, and an order of it at work is about to be cancelled. Either
-- its cancel is on the way, or it is the tracked one, with its id and a second of
-- the five left.
structure Clear (key : OrderKey) : Prop where
  handled : ∀ p, .place p ∈ s.commands → p.key ≠ key
  settled : ∀ o ∈ s.orders, o.key = key → o.working (w.utc s.nowNs) →
    (∃ command ∈ s.commands, CancelsOrder o.id command) ∨
      ∃ existing, s.trader.ourOrders.get key = some existing ∧ existing.orderId = some (o.id : ℤ) ∧
        seconds (s.nowNs - existing.placeMonotonicNs) < gtdLifetimeS - cancelThresholdS

def QuotesClear (input : PairInput) : Prop :=
  ∀ p, .place p ∈ (pairStep quoting w s input).2 → Clear w s p.key

theorem place_keyed {commands : List Command} {key : OrderKey} :
    key ∈ placeKeys commands ↔ ∃ p, .place p ∈ commands ∧ p.key = key := by
  rw [mem_placeKeys]
  constructor
  · rintro ⟨_, member, p, rfl, own⟩
    exact ⟨p, member, own⟩
  · rintro ⟨p, member, own⟩
    exact ⟨_, member, p, rfl, own⟩

instance (key : OrderKey) : Decidable (Clear w s key) :=
  decidable_of_iff (key ∉ placeKeys s.commands ∧ ∀ o ∈ s.orders, o.key = key → o.working (w.utc s.nowNs) →
      (∃ command ∈ s.commands, CancelsOrder o.id command) ∨
        ∃ existing ∈ s.trader.ourOrders.get key, existing.orderId = some (o.id : ℤ) ∧
          seconds (s.nowNs - existing.placeMonotonicNs) < gtdLifetimeS - cancelThresholdS)
    ⟨fun given => ⟨fun p member own => given.1 (place_keyed.mpr ⟨p, member, own⟩), given.2⟩,
      fun clear => ⟨fun member => (place_keyed.mp member).elim fun p held => clear.handled p held.1 held.2, clear.settled⟩⟩

instance (input : PairInput) : Decidable (QuotesClear quoting w s input) :=
  decidable_of_iff (∀ key ∈ placeKeys (pairStep quoting w s input).2, Clear w s key)
    ⟨fun given p sent => given p.key (place_keyed.mpr ⟨p, sent, rfl⟩),
      fun clear _ member => (place_keyed.mp member).elim fun p sent => sent.2 ▸ clear p sent.1⟩

end Steps

section Modes

theorem daemonStep_mode (d : DaemonState) (e : DaemonEvent) : (daemonStep d e).1.runtime.mode = d.runtime.mode := by
  cases e with
  | fill fill now book =>
    simp only [daemonStep, handleFill]
    split
    · rfl
    · split
      · rfl
      · simp only [hedgeOnFill]
        split <;> rfl
  | connection ev =>
    simp only [daemonStep, pumpConnection]
    split <;> rfl
  | rollover hour today =>
    simp only [daemonStep, dailyHaltRollover]
    split <;> rfl
  | placeTaken cmd clock =>
    simp only [daemonStep]
    split <;> rfl
  | cancel cmd =>
    simp only [daemonStep]
    split <;> rfl
  | tick tick =>
    simp only [daemonStep, pumpTick]
    split
    · rfl
    · split <;> rfl
  | accountPoll answer => cases answer <;> rfl
  | _ => rfl

theorem daemonStep_waiting {e : DaemonEvent} (apart : e.isCommand = false) (d : DaemonState) :
    (daemonStep d e).1.inFlight = d.inFlight := by
  cases e with
  | placeTaken cmd clock => cases apart
  | placeSent => cases apart
  | cancel cmd => cases apart
  | _ => rfl

theorem daemonStep_cancel {d : DaemonState} (idle : d.inFlight = none) (cmd : Option CancelOrderCmd) :
    daemonStep d (.cancel cmd) = (d, handleCancel d.runtime cmd) := by
  simp only [daemonStep, idle]

theorem resolvePlace_shadow {r : Runtime} (shadow : r.mode = .shadow) (clock : PlaceClock)
    (cmd : Option PlaceOrderCmd) : resolvePlace r clock cmd = none := by
  cases cmd with
  | none => rfl
  | some cmd => simp [resolvePlace, shadow]

theorem handleCancel_live {r : Runtime} (live : r.mode ≠ .shadow) (id : ℕ) :
    handleCancel r (some ⟨id⟩) = [.trader (.cancelOrder id)] := by
  simp [handleCancel, live]

end Modes

section Working

variable {w : Wiring} {s : Pair}

@[simp] theorem endedBy_id (calls : List Call) (o : PlacedOrder) : (o.endedBy calls).id = o.id := by
  unfold PlacedOrder.endedBy
  split <;> rfl

@[simp] theorem endedBy_key (calls : List Call) (o : PlacedOrder) : (o.endedBy calls).key = o.key := by
  unfold PlacedOrder.endedBy
  split <;> rfl

theorem endedBy_working {calls : List Call} {o : PlacedOrder} {now : UtcTime} (works : (o.endedBy calls).working now) :
    o.working now ∧ .trader (.cancelOrder o.id) ∉ calls := by
  unfold PlacedOrder.endedBy at works
  split at works
  · simp [PlacedOrder.working] at works
  · rename_i spared
    exact ⟨works, fun cancelled => spared (.inl cancelled)⟩

theorem closed_working {o : PlacedOrder} {id : OrderId} {now : UtcTime}
    (works : (if o.id = id then { o with closed := true } else o).working now) : o.working now := by
  split at works
  · simp [PlacedOrder.working] at works
  · exact works

theorem elapsed_working {o : PlacedOrder} {nowNs ns : ℕ} (works : o.working (w.utc (nowNs + ns))) :
    o.working (w.utc nowNs) := by
  unfold PlacedOrder.working at *
  simp only [Bool.and_eq_true, Option.all_eq_true] at *
  refine ⟨works.1, fun till lasts => ?_⟩
  have later := works.2 till lasts
  simp only [decide_eq_true_eq] at *
  refine le_trans ?_ later
  unfold Wiring.utc
  exact Int.add_le_add_left (Int.ofNat_le.mpr (Nat.le_add_right nowNs ns)) w.epoch

-- What keeps a second order of a key from getting to work: the cancels ahead of
-- each waiting place.
structure OneEach (w : Wiring) (s : Pair) : Prop where
  live : s.daemon.runtime.mode = .shadow → s.orders = [] ∧ s.daemon.inFlight = none
  one : OneQuote w s
  ahead : ∀ o ∈ s.orders, o.working (w.utc s.nowNs) →
    Fence.Fenced (CancelsOrder o.id) (PlacesFor o.key) s.commands
  apart : (placeKeys s.commands).Nodup

theorem placed_live (held : OneEach w s) {o : PlacedOrder} (placed : o ∈ s.orders) :
    s.daemon.runtime.mode ≠ .shadow := by
  intro shadow
  rw [(held.live shadow).1] at placed
  cases placed

-- Orders that were there before, none back at work, and nothing new on the way.
theorem one_kept {next : Pair} (held : OneEach w s) (f : PlacedOrder → PlacedOrder)
    (same : next.orders = s.orders.map f) (named : ∀ o, (f o).id = o.id ∧ (f o).key = o.key)
    (works : ∀ o, (f o).working (w.utc next.nowNs) → o.working (w.utc s.nowNs)) : OneQuote w next := by
  intro key
  rw [same, List.countP_map]
  refine le_trans (List.countP_mono_left ?_) (held.one key)
  intro o _ counted
  simp only [Function.comp, decide_eq_true_eq] at *
  exact ⟨(named o).2 ▸ counted.1, works o counted.2⟩

-- A step that sends nothing and puts nothing new to work.
theorem oneEach_kept {next : Pair} (held : OneEach w s) (f : PlacedOrder → PlacedOrder)
    (mode : next.daemon.runtime.mode = s.daemon.runtime.mode) (waiting : next.daemon.inFlight = s.daemon.inFlight)
    (same : next.orders = s.orders.map f) (named : ∀ o, (f o).id = o.id ∧ (f o).key = o.key)
    (works : ∀ o, (f o).working (w.utc next.nowNs) → o.working (w.utc s.nowNs))
    (commands : next.commands = s.commands) : OneEach w next := by
  refine ⟨?_, one_kept held f same named works, ?_, ?_⟩
  · intro shadow
    obtain ⟨none_placed, idle⟩ := held.live (mode ▸ shadow)
    rw [same, none_placed, waiting]
    exact ⟨rfl, idle⟩
  · intro o member at_work
    rw [same] at member
    obtain ⟨before, there, rfl⟩ := List.mem_map.mp member
    rw [commands, (named before).1, (named before).2]
    exact held.ahead before there (works before at_work)
  · rw [commands]
    exact held.apart

theorem oneEach_unchanged {next : Pair} (held : OneEach w s) (daemon : next.daemon = s.daemon)
    (orders : next.orders = s.orders) (now : next.nowNs = s.nowNs) (commands : next.commands = s.commands) :
    OneEach w next := by
  refine oneEach_kept held id (by rw [daemon]) (by rw [daemon]) ?_ (fun _ => ⟨rfl, rfl⟩) ?_ commands
  · rw [orders, List.map_id]
  · intro o works
    rw [now] at works
    exact works

end Working

section Handling

variable {w : Wiring} {s : Pair}

theorem takeCommand_oneEach (held : OneEach w s) : OneEach w (takeCommand w s) := by
  unfold takeCommand
  split
  · rename_i p rest idle waiting
    dsimp only
    have mode := daemonStep_mode s.daemon (.placeTaken (w.reads p) { w.formats with nowUtc := w.utc s.nowNs })
    have resolved : s.daemon.runtime.mode = .shadow →
        (daemonStep s.daemon (.placeTaken (w.reads p) { w.formats with nowUtc := w.utc s.nowNs })).1.inFlight = none := by
      intro shadow
      simp only [daemonStep, idle]
      exact resolvePlace_shadow shadow _ _
    refine ⟨?_, held.one, ?_, ?_⟩
    · intro shadow
      have was := mode ▸ shadow
      exact ⟨(held.live was).1, resolved was⟩
    · intro o member works
      dsimp only
      split
      · exact held.ahead o member works
      · exact (behind_place (waiting ▸ held.ahead o member works)).2
    · dsimp only
      split
      · exact held.apart
      · have once := held.apart
        rw [waiting] at once
        exact (List.nodup_cons.mp once).2
  · rename_i c rest idle waiting
    rw [daemonStep_cancel idle]
    dsimp only
    refine ⟨?_, ?_, ?_, ?_⟩
    · intro shadow
      obtain ⟨none_placed, idle⟩ := held.live shadow
      exact ⟨by simp [none_placed], idle⟩
    · exact one_kept held _ rfl (fun o => ⟨endedBy_id _ o, endedBy_key _ o⟩) fun o works => (endedBy_working works).1
    · intro o member works
      obtain ⟨before, there, rfl⟩ := List.mem_map.mp member
      obtain ⟨worked, spared⟩ := endedBy_working works
      have live := placed_live held there
      rw [endedBy_id, endedBy_key]
      refine behind_cancel (waiting ▸ held.ahead before there worked) ?_
      intro own
      rw [handleCancel_live live, own] at spared
      exact spared (List.mem_singleton_self _)
    · have once := held.apart
      rw [waiting] at once
      exact once
  · exact held

-- The place at the head has nothing of its key at work before it.
theorem head_alone (held : OneEach w s) {p : PlaceOrder} {rest : List Command} (waiting : s.commands = .place p :: rest) :
    s.orders.countP (fun o => o.key = p.key ∧ o.working (w.utc s.nowNs)) = 0 := by
  rw [List.countP_eq_zero]
  intro o member counted
  obtain ⟨own, works⟩ := of_decide_eq_true counted
  have other := (behind_place (waiting ▸ held.ahead o member works)).1
  exact other own.symm

theorem sendPlace_oneEach (held : OneEach w s) (refused : Bool) : OneEach w (sendPlace s refused) := by
  unfold sendPlace
  split
  · rename_i req p rest inFlight waiting
    have live : s.daemon.runtime.mode ≠ .shadow := by
      intro shadow
      rw [(held.live shadow).2] at inFlight
      cases inFlight
    have mode := daemonStep_mode s.daemon .placeSent
    have once := held.apart
    rw [waiting] at once
    obtain ⟨unique, rest_apart⟩ := List.nodup_cons.mp once
    have rest_ahead : ∀ o ∈ s.orders, o.working (w.utc s.nowNs) →
        Fence.Fenced (CancelsOrder o.id) (PlacesFor o.key) rest := by
      intro o member works
      exact (behind_place (waiting ▸ held.ahead o member works)).2
    split
    · exact ⟨fun shadow => absurd (mode ▸ shadow) live, held.one, rest_ahead, rest_apart⟩
    · refine ⟨fun shadow => absurd (mode ▸ shadow) live, ?_, ?_, rest_apart⟩
      · intro key
        rw [List.countP_append]
        by_cases own : p.key = key
        · subst own
          have alone := head_alone held waiting
          have single : [(⟨s.nextId, p.key, req.gtdUntilUtc, false⟩ : PlacedOrder)].countP (fun o =>
              o.key = p.key ∧ o.working (w.utc s.nowNs)) ≤ 1 := List.countP_le_length
          dsimp only
          omega
        · have other := held.one key
          simpa [own] using other
      · intro o member works
        rcases List.mem_append.mp member with old | new
        · exact rest_ahead o old works
        · rw [List.mem_singleton.mp new]
          refine Fence.fenced_clear ?_
          intro command later places
          exact unique (mem_placeKeys.mpr ⟨command, later, places⟩)
  · exact held

end Handling

section Sending

variable {quoting : Quoting} {w : Wiring} {s : Pair}

theorem cancels_replaced {key : OrderKey} {existing : OurOrder} {id : ℤ} {now : ℕ} {s : TraderState}
    (tracked : s.ourOrders.get key = some existing) (known : existing.orderId = some id)
    (young : seconds (now - existing.placeMonotonicNs) < gtdLifetimeS - cancelThresholdS) :
    replaced s key now = some id := by
  have left : cancelThresholdS < gtdLifetimeS - seconds (now - existing.placeMonotonicNs) := by linarith
  unfold replaced cancelOldOid
  rw [tracked]
  simp only [Option.bind_some, if_pos left, known]

theorem sent_oneEach (held : OneEach w s) {trader : TraderState} {commands : List Command}
    (sends : Sends s.trader s.nowNs commands) (clear : ∀ p, .place p ∈ commands → Clear w s p.key) :
    OneEach w { s with trader, commands := s.commands ++ commands } := by
  refine ⟨held.live, held.one, ?_, ?_⟩
  · intro o member works
    rw [Fence.fenced_append]
    refine ⟨held.ahead o member works, ?_⟩
    by_cases places : ∃ command ∈ commands, PlacesFor o.key command
    · obtain ⟨_, sent, p, rfl, own⟩ := places
      rcases (clear p sent).settled o member own.symm works with under_way | ⟨existing, tracked, known, young⟩
      · exact .inl under_way
      · exact .inr (sends.behind o.key o.id (cancels_replaced (own ▸ tracked) known young))
    · exact .inr (Fence.fenced_clear fun command sent hits => places ⟨command, sent, hits⟩)
  · unfold placeKeys
    rw [List.filterMap_append, List.nodup_append]
    refine ⟨held.apart, sends.once, ?_⟩
    intro old earlier new later same
    obtain ⟨_, waits, p, rfl, own⟩ := mem_placeKeys.mp earlier
    obtain ⟨_, sent, q, rfl, mine⟩ := mem_placeKeys.mp later
    exact (clear q sent).handled p waits (own.trans (same.trans mine.symm))

theorem oneEach_step (held : OneEach w s) (input : PairInput) (clear : QuotesClear quoting w s input) :
    OneEach w (pairStep quoting w s input).1 := by
  cases input with
  | trader wallNs placesOrders input apart =>
    exact sent_oneEach held (@traderStep_sends quoting s.trader (s.turn wallNs placesOrders) input apart) clear
  | placeAcked wallNs =>
    simp only [pairStep]
    split
    · exact held
    · exact oneEach_unchanged held rfl rfl rfl rfl
  | orderAcked =>
    simp only [pairStep]
    split
    · exact held
    · exact oneEach_unchanged held rfl rfl rfl rfl
  | commandTaken => exact takeCommand_oneEach held
  | placeSent refused => exact sendPlace_oneEach held refused
  | daemon e apart =>
    exact oneEach_kept held _ (daemonStep_mode s.daemon e) (daemonStep_waiting apart s.daemon) rfl
      (fun o => ⟨endedBy_id _ o, endedBy_key _ o⟩) (fun o works => (endedBy_working works).1) rfl
  | ended id =>
    refine oneEach_kept held _ rfl rfl rfl ?_ (fun _ => closed_working) rfl
    intro o
    split <;> exact ⟨rfl, rfl⟩
  | reported id status =>
    simp only [pairStep, report]
    split
    · exact held
    · exact oneEach_unchanged held rfl rfl rfl rfl
  | elapsed ns => exact oneEach_kept held id rfl rfl (List.map_id _).symm (fun _ => ⟨rfl, rfl⟩) (fun _ => elapsed_working) rfl

theorem start_oneEach (w : Wiring) (trader : TraderState) (runtime : Runtime) (nextId : OrderId) (nowNs : ℕ) :
    OneEach w (.start trader runtime nextId nowNs) := by
  refine ⟨fun _ => ⟨rfl, rfl⟩, fun _ => Nat.zero_le _, ?_, List.nodup_nil⟩
  intro o member
  cases member

end Sending

theorem clear_quotes_one (quoting : Quoting) (w : Wiring) (trader : TraderState) (runtime : Runtime) (nextId : OrderId)
    (nowNs : ℕ) (inputs : List PairInput)
    (clear : Machine.Along (pairStep quoting w) (QuotesClear quoting w) (.start trader runtime nextId nowNs) inputs) :
    OneQuote w (Machine.after (pairStep quoting w) (.start trader runtime nextId nowNs) inputs) :=
  (Machine.reached (OneEach w) (fun _ input clear held => oneEach_step held input clear)
    (start_oneEach w trader runtime nextId nowNs) clear).one

section Refresh

def callMarket : Runtime where
  mode := .live
  config := ⟨true, some "DU1"⟩
  portfolio := .new (Book.ProductRegistry.register ∅ ⟨"HG", 25000, 3/10⟩)
  risk := .new Risk.hgLimits
  hedge := ⟨[]⟩
  marketData := MarketDataState.new.registerOption "HG" 6 ⟨2026, 6, 26, by decide⟩ .call 900
  account := ⟨0, 0, 0, 0, 0, 0⟩

-- The trader's own body with the instrument it leaves out, read by the broker.
def named900 : Wiring where
  reads p := (decodePlaceOrder (("instrument_id", .int 900) :: p.encode)).toOption
  formats := ⟨"2606", fun _ => "2026-06-26", fun _ => "6.000", 0⟩
  epoch := 0

theorem atmTick_apart : ¬IsAck (.event atmTick) := by
  intro given
  obtain ⟨generic, decoded, ack⟩ := given
  have tick : decodeGeneric atmTick = .ok ⟨"tick", some 1⟩ := by rfl
  rw [tick] at decoded
  cases decoded
  simp at ack

def ticked : PairInput := .trader 0 true (.event atmTick) atmTick_apart

def brokerTurn : List PairInput := [.commandTaken, .placeSent false, .commandTaken, .placeSent false]

def quoted : Pair := .start atmTrader callMarket 1 1000000000

end Refresh

-- Quoted again after 3.6 seconds, each order behind the cancel of the one it replaces.
def replacing : List PairInput :=
  let replaceTurn : List PairInput := [.commandTaken, .commandTaken, .placeSent false]
  [ticked] ++ brokerTurn ++ [.placeAcked 0, .placeAcked 0, .elapsed 3600000000, ticked] ++ replaceTurn ++ replaceTurn

theorem replaced_quotes_one : OneQuote named900 (Machine.after (pairStep atmQuoting named900) quoted replacing) :=
  clear_quotes_one atmQuoting named900 atmTrader callMarket 1 1000000000 replacing (by decide +kernel)

example : (Machine.after (pairStep atmQuoting named900) quoted replacing).orders.map (·.closed) =
    [true, true, false, false] := by decide +kernel

def refreshed : Pair :=
  Machine.after (pairStep atmQuoting named900) quoted
    ([ticked] ++ brokerTurn ++ [.placeAcked 0, .placeAcked 0, .elapsed 4000000000, ticked] ++ brokerTurn)

-- Both quotes are acknowledged at once. Four seconds on the trader takes them for as
-- good as expired and quotes again, and they have twenty-six seconds to go.
theorem refresh_doubles : ¬OneQuote named900 refreshed := by
  have now : refreshed.nowNs = 5000000000 := by decide +kernel
  have twice : refreshed.orders.countP (fun o => o.key = ⟨6, "20260626", 'C', 'B'⟩ ∧
      o.working (named900.utc 5000000000)) = 2 := by
    decide +kernel
  intro one
  have most := one ⟨6, "20260626", 'C', 'B'⟩
  rw [now, twice] at most
  cases Nat.lt_irrefl _ most

end Corsair.Daemon
