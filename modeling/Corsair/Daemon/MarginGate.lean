import Mathlib.Data.List.Sort
import Corsair.Daemon.CommandWire
import Corsair.Daemon.FillOnce
import Corsair.Lib.Latest
import Corsair.Native.Broker
import Corsair.Trader.Gates

namespace Corsair.Daemon

open BrokerApi Book Native Trader Wire

-- broker.rs, account_values. The map is gone through in an order of its own, here
-- by a rank of the keys; the last value under a name stands.
structure AccountReading where
  netLiquidation : F64
  maintenanceMargin : F64
  initialMargin : F64
  buyingPower : F64
  realizedPnlToday : F64

def AccountReading.zero : AccountReading := ⟨.finite 0, .finite 0, .finite 0, .finite 0, .finite 0⟩

abbrev AccountKey := String × String × String

def readValue (snap : AccountReading) (entry : AccountKey × AccountValueMsg) : AccountReading :=
  let parsed := (parseFloat entry.2.value).getD (.finite 0)
  match entry.1.1 with
  | "NetLiquidation" => { snap with netLiquidation := parsed }
  | "MaintMarginReq" => { snap with maintenanceMargin := parsed }
  | "InitMarginReq" => { snap with initialMargin := parsed }
  | "BuyingPower" => { snap with buyingPower := parsed }
  | "RealizedPnL" => { snap with realizedPnlToday := parsed }
  | _ => snap

def iterated (rank : AccountKey → ℕ) (s : BrokerState) : List (AccountKey × AccountValueMsg) :=
  s.accountValues.items.insertionSort fun a b => rank a.1 ≤ rank b.1

def accountValues (rank : AccountKey → ℕ) (s : BrokerState) : AccountReading :=
  (iterated rank s).foldl readValue .zero

-- The figures of a reading, and the name each is reported under.
inductive Figure where
  | netLiquidation
  | maintenanceMargin
  | initialMargin
  | buyingPower
  | realizedPnlToday

def Figure.key : Figure → String
  | .netLiquidation => "NetLiquidation"
  | .maintenanceMargin => "MaintMarginReq"
  | .initialMargin => "InitMarginReq"
  | .buyingPower => "BuyingPower"
  | .realizedPnlToday => "RealizedPnL"

def AccountReading.figure (snap : AccountReading) : Figure → F64
  | .netLiquidation => snap.netLiquidation
  | .maintenanceMargin => snap.maintenanceMargin
  | .initialMargin => snap.initialMargin
  | .buyingPower => snap.buyingPower
  | .realizedPnlToday => snap.realizedPnlToday

-- What a value that is kept, or none, comes to in the reading.
def amount (kept : Option AccountValueMsg) : F64 := (kept.bind fun a => parseFloat a.value).getD (.finite 0)

-- ipc.rs, periodic_risk_state. What becomes of account_values within its 50 ms.
inductive AccountPoll where
  | answered (rank : AccountKey → ℕ)
  | failed
  | timedOut

def marginUsd (s : BrokerState) : AccountPoll → F64
  | .answered rank => (accountValues rank s).maintenanceMargin
  | .failed | .timedOut => .finite 0

def marginPct (capital : ℚ) (usd : F64) : F64 :=
  if 0 < capital then
    match usd with
    | .finite value => .finite (value / capital)
    | special => special
  else .finite 0

def riskStateEvent (capital : ℚ) (tsNs : ℕ) (r : Runtime) (usd : F64) : Body F64 :=
  let total := r.portfolio.aggregate.total
  let hedgeDelta := (r.hedge.managers.map (·.hedgeQty)).sum
  [("type", .str "risk_state"), ("ts_ns", .int tsNs), ("margin_usd", .float usd),
    ("margin_pct", .float (marginPct capital usd)), ("options_delta", .float (.finite total.netDelta)),
    ("hedge_delta", .int hedgeDelta), ("effective_delta", .float (.finite (total.netDelta + hedgeDelta))),
    ("theta", .float (.finite total.netTheta)), ("vega", .float (.finite total.netVega)),
    ("gamma", .float (.finite total.netGamma)),
    ("total_contracts", .int (r.portfolio.positions.map fun p => (p.quantity.natAbs : ℤ)).sum),
    ("n_positions", .int total.grossPositions)]

-- What the trader takes from a body for its risk state.
def riskStateOf (body : Body F64) : Option RiskStateMsg :=
  match decodeGeneric body with
  | .ok generic => if generic.msgType = "risk_state" then (decodeRiskState body).toOption else none
  | .error _ => none

-- A body another publisher puts on the ring.
structure OtherBody where
  body : Body F64
  other : riskStateOf body = none

-- The adapter, the daemon, the ring between the broker and the trader, and the trader.
-- With them goes the text of the latest MaintMarginReq the gateway has reported, as of
-- now, as of each body on the ring, and as of the risk state the trader has.
structure MarginPipe where
  adapter : BrokerState
  daemon : DaemonState
  reported : Option String
  ring : List (Body F64 × Option String)
  trader : TraderState
  basis : Option String

def MarginPipe.start (daemon : DaemonState) : MarginPipe := ⟨.default, daemon, none, [], .new, none⟩

inductive MarginEvent where
  | inbound (frame : Frame) (now : ℕ)
  | daemon (e : DaemonEvent)
  | riskState (poll : AccountPoll) (tsNs : ℕ) (ringFull : Bool)
  | published (other : OtherBody)
  | taken (turn : Trader.Turn)
  | stalenessLoop (turn : Trader.Turn)

def reportedMargin (frame : Frame) : Option String :=
  match parseInbound frame with
  | .ok (.accountValue a) => if a.key = "MaintMarginReq" then some a.value else none
  | _ => none

section Steps

variable (chrono : Chrono) (quoting : Quoting) (capital : ℚ)

def marginStep (p : MarginPipe) : MarginEvent → MarginPipe × List Command
  | .inbound frame now =>
    ({ p with
        adapter := (dispatch chrono now true p.adapter frame).1
        reported := (reportedMargin frame).or p.reported }, [])
  | .daemon e => ({ p with daemon := (daemonStep p.daemon e).1 }, [])
  | .riskState poll tsNs ringFull =>
    let body := riskStateEvent capital tsNs p.daemon.runtime (marginUsd p.adapter poll)
    (if ringFull then p else { p with ring := p.ring ++ [(body, p.reported)] }, [])
  | .published other => ({ p with ring := p.ring ++ [(other.body, p.reported)] }, [])
  | .taken turn => match p.ring with
    | [] => (p, [])
    | (body, reported) :: rest =>
      let (trader, commands) := processEvent quoting turn p.trader body
      ({ p with ring := rest, trader, basis := if (riskStateOf body).isSome then reported else p.basis }, commands)
  | .stalenessLoop turn =>
    let (trader, commands) := stalenessCheck quoting turn p.trader
    ({ p with trader }, commands)

def pipeAfter (daemon : DaemonState) (events : List MarginEvent) : MarginPipe :=
  Machine.after (marginStep chrono quoting capital) (.start daemon) events

end Steps

section Property

variable (chrono : Chrono) (quoting : Quoting) (capital : ℚ)

-- The margin_pct is that of a margin the gateway has reported.
def Based (pct : ℚ) (reported : Option String) : Prop :=
  ∃ text margin, reported = some text ∧ parseFloat text = some (.finite margin) ∧ pct = margin / capital

def Gated (p : MarginPipe) : Prop :=
  ∃ pct ∈ p.trader.riskMarginPct, Based capital pct p.basis ∧ pct < p.trader.marginCeilingPct

-- In every state reached the gate is open, and an order is placed, on a known margin only.
structure MarginKnown (daemon : DaemonState) (events : List MarginEvent) : Prop where
  opened : ∀ past, past <+: events → ∀ now, let p := pipeAfter chrono quoting capital daemon past
    (computeRiskGates p.trader now).all = false → Gated capital p
  placed : ∀ past, past <+: events → ∀ tick now, let p := pipeAfter chrono quoting capital daemon past
    decideOnTick quoting (recordTick p.trader tick) tick now ≠ [] → Gated capital p

end Property

-- The value the loop of account_values ends up with.
def lastRead (rank : AccountKey → ℕ) (s : BrokerState) : Option String :=
  ((iterated rank s).reverse.find? (·.1.1 = "MaintMarginReq")).map (·.2.value)

-- A risk state goes out with the margin that was reported last.
def Answers (capital : ℚ) (p : MarginPipe) : MarginEvent → Prop
  | .riskState poll _ ringFull => ringFull = false → 0 < capital ∧ ∃ rank text margin, poll = .answered rank ∧
      p.reported = some text ∧ parseFloat text = some margin ∧ lastRead rank p.adapter = some text
  | _ => True

section Steps

variable {chrono : Chrono} {quoting : Quoting} {capital : ℚ} {turn : Trader.Turn} {s : TraderState}

theorem decodeRiskState_pct {body : Body F64} {r : RiskStateMsg} (decoded : decodeRiskState body = .ok r) :
    required body "margin_pct" asReal = .ok r.marginPct := by
  unfold decodeRiskState at decoded
  obtain ⟨usd, -, decoded⟩ := bind_ok decoded
  obtain ⟨pct, read, decoded⟩ := bind_ok decoded
  obtain ⟨optionsDelta, -, decoded⟩ := bind_ok decoded
  obtain ⟨hedgeDelta, -, decoded⟩ := bind_ok decoded
  obtain ⟨effectiveDelta, -, decoded⟩ := bind_ok decoded
  obtain ⟨theta, -, decoded⟩ := bind_ok decoded
  obtain ⟨vega, -, decoded⟩ := bind_ok decoded
  obtain ⟨gamma, -, decoded⟩ := bind_ok decoded
  obtain ⟨contracts, -, decoded⟩ := bind_ok decoded
  obtain ⟨positions, -, decoded⟩ := bind_ok decoded
  cases decoded
  exact read

theorem riskStateOf_decodes {body : Body F64} {r : RiskStateMsg} (taken : riskStateOf body = some r) :
    decodeRiskState body = .ok r := by
  unfold riskStateOf at taken
  split at taken
  · split at taken
    · cases read : decodeRiskState body with
      | ok own =>
        rw [read] at taken
        exact congrArg Except.ok (Option.some.inj taken)
      | error e =>
        rw [read] at taken
        cases taken
    · cases taken
  · cases taken

theorem riskStateEvent_pct {tsNs : ℕ} {r : Runtime} {usd : F64} {msg : RiskStateMsg}
    (taken : riskStateOf (riskStateEvent capital tsNs r usd) = some msg) :
    marginPct capital usd = .finite msg.marginPct := by
  have pct := decodeRiskState_pct (riskStateOf_decodes taken)
  change readAs "margin_pct" asReal (.float (marginPct capital usd)) = _ at pct
  cases value : marginPct capital usd with
  | finite x =>
    rw [value] at pct
    exact congrArg F64.finite (Except.ok.inj pct)
  | infinite negative =>
    rw [value] at pct
    cases pct
  | nan =>
    rw [value] at pct
    cases pct

theorem readValue_figure (snap : AccountReading) (entry : AccountKey × AccountValueMsg) (figure : Figure) :
    (readValue snap entry).figure figure = if entry.1.1 = figure.key then amount (some entry.2) else snap.figure figure := by
  unfold readValue
  split <;> rename_i named <;> cases figure <;> simp_all [AccountReading.figure, Figure.key, amount]

-- The entry under its name that the loop comes to last gives a figure its value.
theorem read_figure (entries : List (AccountKey × AccountValueMsg)) (figure : Figure) :
    (entries.foldl readValue .zero).figure figure =
      amount ((entries.reverse.find? (·.1.1 = figure.key)).map Prod.snd) := by
  induction entries using List.reverseRecOn with
  | nil => cases figure <;> rfl
  | append_singleton past entry same =>
    rw [List.foldl_append, List.reverse_append, List.reverse_singleton, List.singleton_append, List.find?_cons,
      List.foldl_cons, List.foldl_nil, readValue_figure]
    by_cases own : entry.1.1 = figure.key
    · rw [if_pos own, decide_eq_true own]
      rfl
    · rw [if_neg own, decide_eq_false own, same]

def riskFields (s : TraderState) : Option ℚ × Option ℚ := (s.riskEffectiveDelta, s.riskMarginPct)

theorem processEvent_risk (body : Body F64) :
    riskFields (processEvent quoting turn s body).1 =
      match riskStateOf body with
      | some r => (some r.effectiveDelta, some r.marginPct)
      | none => riskFields s := by
  unfold riskStateOf
  cases decoded : decodeGeneric body with
  | error e => rw [processEvent_undecoded decoded]
  | ok generic =>
    dsimp only
    by_cases own : generic.msgType = "risk_state"
    · rw [if_pos own]
      unfold processEvent
      rw [decoded]
      simp only [own]
      cases decodeRiskState body <;> rfl
    · rw [if_neg own]
      have effect := @processEvent_effect quoting turn s body generic decoded
      generalize generic.msgType = kind at own effect
      generalize processEvent quoting turn s body = result at effect
      cases effect with
      | ticked tick => exact congrArg Prod.snd (onTick_broadcasts tick)
      | risk r => exact absurd rfl own
      | placeAck p => exact congrArg Prod.snd (takePlaceAck_broadcasts p)
      | orderAck a => exact congrArg Prod.snd (takeOrderAck_broadcasts a)
      | _ => rfl

-- The margin the loop reads is the one reported last.
theorem answered_margin {p : MarginPipe} {rank : AccountKey → ℕ} {text : String} {margin : F64}
    (parsed : parseFloat text = some margin) (read : lastRead rank p.adapter = some text) :
    marginUsd p.adapter (.answered rank) = margin := by
  obtain ⟨entry, found, rfl⟩ := Option.map_eq_some_iff.mp read
  refine (read_figure _ .maintenanceMargin).trans ?_
  rw [Figure.key, found, Option.map_some, amount, Option.bind_some, parsed, Option.getD_some]

structure Sound (capital : ℚ) (p : MarginPipe) : Prop where
  informed : p.trader.riskEffectiveDelta.isSome → ∃ pct ∈ p.trader.riskMarginPct, Based capital pct p.basis
  queued : ∀ entry ∈ p.ring, ∀ r ∈ riskStateOf entry.1, Based capital r.marginPct entry.2

theorem sound_of_fields {p q : MarginPipe} (sound : Sound capital p) (same : riskFields q.trader = riskFields p.trader)
    (ring : q.ring = p.ring) (basis : q.basis = p.basis) : Sound capital q := by
  obtain ⟨eff, pct⟩ := Prod.mk.inj same
  refine ⟨?_, ring ▸ sound.queued⟩
  rw [eff, pct, basis]
  exact sound.informed

theorem sound_step {p : MarginPipe} {e : MarginEvent} (answers : Answers capital p e) (sound : Sound capital p) :
    Sound capital (marginStep chrono quoting capital p e).1 := by
  cases e with
  | inbound frame now => exact sound_of_fields sound rfl rfl rfl
  | daemon e => exact sound_of_fields sound rfl rfl rfl
  | riskState poll tsNs ringFull =>
    cases ringFull with
    | true => exact sound
    | false =>
      refine ⟨sound.informed, List.forall_mem_append.mpr ⟨sound.queued, ?_⟩⟩
      intro entry member r taken
      obtain rfl := List.mem_singleton.mp member
      obtain ⟨positive, rank, text, margin, rfl, known, parsed, read⟩ := answers rfl
      have pct := riskStateEvent_pct taken
      rw [answered_margin parsed read] at pct
      unfold marginPct at pct
      rw [if_pos positive] at pct
      cases margin with
      | finite value => exact ⟨text, value, known, parsed, (F64.finite.inj pct).symm⟩
      | infinite negative => cases pct
      | nan => cases pct
  | published other =>
    refine ⟨sound.informed, List.forall_mem_append.mpr ⟨sound.queued, ?_⟩⟩
    intro entry member r taken
    obtain rfl := List.mem_singleton.mp member
    rw [other.other] at taken
    cases taken
  | taken turn =>
    unfold marginStep
    cases waiting : p.ring with
    | nil => exact sound
    | cons first rest =>
      obtain ⟨body, reported⟩ := first
      have queued := sound.queued
      rw [waiting, List.forall_mem_cons] at queued
      have fields := @processEvent_risk quoting turn p.trader body
      cases taken : riskStateOf body with
      | none =>
        rw [taken] at fields
        obtain ⟨eff, pct⟩ := Prod.mk.inj fields
        refine ⟨?_, queued.2⟩
        dsimp only
        rw [eff, pct, taken]
        exact sound.informed
      | some r =>
        rw [taken] at fields
        obtain ⟨eff, pct⟩ := Prod.mk.inj fields
        refine ⟨?_, queued.2⟩
        dsimp only
        rw [pct, taken]
        exact fun _ => ⟨r.marginPct, rfl, queued.1 r taken⟩
  | stalenessLoop turn => exact sound_of_fields sound (congrArg Prod.snd stalenessCheck_broadcasts) rfl rfl

end Steps

-- A gateway that reports the margin under one currency and account.
structure SingleAccount (key : AccountKey) (p : MarginPipe) : Prop where
  only : ∀ entry ∈ p.adapter.accountValues.items, entry.1.1 = "MaintMarginReq" → entry.1 = key
  latest : (p.adapter.accountValues.get key).map (·.value) = p.reported

def ReportsUnder (key : AccountKey) : MarginEvent → Prop
  | .inbound frame _ => ∀ a, parseInbound frame = .ok (.accountValue a) → a.key = "MaintMarginReq" →
      (a.key, a.currency, a.account) = key
  | _ => True

section Single

variable {chrono : Chrono} {quoting : Quoting} {capital : ℚ} {key : AccountKey} {p : MarginPipe}

-- In whatever order it is gone through.
theorem lastRead_single (margin : key.1 = "MaintMarginReq") (single : SingleAccount key p) (rank : AccountKey → ℕ) :
    lastRead rank p.adapter = p.reported := by
  rw [← single.latest]
  change (Latest.final (·.1.1 = "MaintMarginReq") rank p.adapter.accountValues).map (·.2.value) = _
  cases found : Latest.final (·.1.1 = "MaintMarginReq") rank p.adapter.accountValues with
  | some entry =>
    obtain ⟨held, named⟩ := Latest.final_held found
    rw [single.only _ (HashMap.mem_items.mpr held) named] at held
    rw [held]
    rfl
  | none =>
    cases held : p.adapter.accountValues.get key with
    | none => rfl
    | some a => exact absurd margin (Latest.final_none.mp found key a held)

theorem single_account (margin : key.1 = "MaintMarginReq") {a : AccountValueMsg}
    (under : a.key = "MaintMarginReq" → (a.key, a.currency, a.account) = key) {values : HashMap AccountKey AccountValueMsg}
    (only : ∀ entry ∈ values.items, entry.1.1 = "MaintMarginReq" → entry.1 = key) :
    let stored := values.set (a.key, a.currency, a.account) a
    (∀ entry ∈ stored.items, entry.1.1 = "MaintMarginReq" → entry.1 = key) ∧
      (stored.get key).map (·.value) = (if a.key = "MaintMarginReq" then some a.value else none).or
        ((values.get key).map (·.value)) := by
  constructor
  · intro entry held named
    have found := HashMap.mem_items.mp held
    rw [HashMap.get_set] at found
    split at found
    · next same =>
      rw [same] at named ⊢
      exact under named
    · exact only entry (HashMap.mem_items.mpr found) named
  · rw [HashMap.get_set]
    by_cases named : a.key = "MaintMarginReq"
    · rw [if_pos (under named).symm, if_pos named]
      rfl
    · have other : key ≠ (a.key, a.currency, a.account) := by
        intro same
        rw [same] at margin
        exact named margin
      rw [if_neg other, if_neg named]
      rfl

theorem single_step (margin : key.1 = "MaintMarginReq") {e : MarginEvent} (reports : ReportsUnder key e)
    (single : SingleAccount key p) : SingleAccount key (marginStep chrono quoting capital p e).1 := by
  obtain ⟨only, latest⟩ := single
  cases e with
  | inbound frame now =>
    change SingleAccount key { p with
      adapter := (dispatch chrono now true p.adapter frame).1
      reported := (reportedMargin frame).or p.reported }
    unfold dispatch reportedMargin
    cases parsed : parseInbound frame with
    | error fault => exact ⟨only, latest⟩
    | ok msg =>
      have values := (route_tables chrono now true p.adapter msg).2
      cases msg with
      | accountValue a =>
        have stored := single_account margin (reports a parsed) only
        rw [latest] at stored
        exact ⟨values ▸ stored.1, values ▸ stored.2⟩
      | _ => exact ⟨values ▸ only, values ▸ latest⟩
  | riskState poll tsNs ringFull => cases ringFull <;> exact ⟨only, latest⟩
  | taken turn =>
    unfold marginStep
    cases p.ring <;> exact ⟨only, latest⟩
  | daemon e => exact ⟨only, latest⟩
  | published other => exact ⟨only, latest⟩
  | stalenessLoop turn => exact ⟨only, latest⟩

theorem lastRead_reported (margin : key.1 = "MaintMarginReq") {daemon : DaemonState} {events : List MarginEvent}
    (reports : Machine.Along (marginStep chrono quoting capital) (fun _ => ReportsUnder key) (.start daemon) events)
    (rank : AccountKey → ℕ) :
    let p := pipeAfter chrono quoting capital daemon events
    lastRead rank p.adapter = p.reported := by
  have start : SingleAccount key (.start daemon) := ⟨List.forall_mem_nil _, rfl⟩
  have single := Machine.reached (SingleAccount key) (fun _ _ under single => single_step margin under single) start reports
  exact lastRead_single margin single rank

end Single

theorem clear_gated {capital : ℚ} {p : MarginPipe} {now : ℕ} {eff : ℚ} (sound : Sound capital p)
    (clear : Trader.Clear p.trader now eff) : Gated capital p := by
  obtain ⟨pct, known, based⟩ := sound.informed (by rw [clear.received]; rfl)
  exact ⟨pct, known, based, clear.margin pct known⟩

theorem margin_known (chrono : Chrono) (quoting : Quoting) (capital : ℚ) (daemon : DaemonState) (events : List MarginEvent)
    (answers : Machine.Along (marginStep chrono quoting capital) (Answers capital) (.start daemon) events) :
    MarginKnown chrono quoting capital daemon events := by
  have reached : ∀ past, past <+: events → Sound capital (pipeAfter chrono quoting capital daemon past) := by
    intro past within
    obtain ⟨rest, rfl⟩ := within
    have start : Sound capital (.start daemon) := ⟨fun known => absurd known Bool.false_ne_true, List.forall_mem_nil _⟩
    exact Machine.reached (Sound capital) (fun _ _ answers sound => sound_step answers sound) start
      ((Machine.along_append _ past rest).mp answers).1
  constructor
  · intro past within now p unblocked
    obtain ⟨eff, clear, -, -⟩ := computeRiskGates_clear unblocked
    exact clear_gated (reached past within) clear
  · intro past within tick now p decided
    obtain ⟨d, member⟩ := List.exists_mem_of_ne_nil _ decided
    obtain ⟨eff, clear, -, -⟩ := decided_clear member
    exact clear_gated (reached past within) ⟨clear.received, clear.stamped, clear.fresh, clear.delta, clear.margin⟩

section Polls

def priceTick : OtherBody := ⟨[("type", .str "underlying_tick"), ("price", .float (.finite 6))], by decide +kernel⟩

def callSurface : OtherBody where
  body := [("type", .str "vol_surface"), ("expiry", .str "20260626"), ("side", .str "C"), ("forward", .float (.finite 6)),
    ("params", .map [("model", .str "sabr"), ("alpha", .float (.finite (1/5))), ("beta", .float (.finite 1)),
      ("rho", .float (.finite 0)), ("nu", .float (.finite 0))])]
  other := by decide +kernel

def marginFrame : Frame := ["6", "2", "MaintMarginReq", "50000", "USD", "DU1"]

-- The prices, a surface and a risk state go round.
def published (poll : AccountPoll) : List MarginEvent :=
  [.published priceTick, .published callSurface, .riskState poll 1 false, .taken quotes, .taken quotes, .taken quotes]

def callAtSix : TickMsg where
  strike := 6
  expiry := "20260626"
  right := "C"
  bid := some (1/10)
  ask := some (7/50)
  bidSize := some 10
  askSize := some 10
  tsNs := some 1

def insertedOrder : AccountPoll := .answered fun _ => 0

end Polls

theorem reported_margin_known :
    MarginKnown noDates atmQuoting 200000 oneOption (.inbound marginFrame 1 :: published insertedOrder) := by
  refine margin_known noDates atmQuoting 200000 oneOption _ ⟨trivial, trivial, trivial, ?_, trivial, trivial, trivial, trivial⟩
  intro _
  exact ⟨by norm_num, fun _ => 0, "50000", .finite 50000, rfl, by decide +kernel, by decide +kernel, by decide +kernel⟩

-- Nothing has been reported, or the poll has timed out on what has been, and both sides are quoted.
theorem unknown_margin_passes :
    (decideOnTick atmQuoting (recordTick (pipeAfter noDates atmQuoting 200000 oneOption (published insertedOrder)).trader
        callAtSix) callAtSix 1000000000 ≠ [] ∧
      ¬MarginKnown noDates atmQuoting 200000 oneOption (published insertedOrder)) ∧
    ¬MarginKnown noDates atmQuoting 200000 oneOption (.inbound marginFrame 1 :: published .timedOut) := by
  have unreported : (pipeAfter noDates atmQuoting 200000 oneOption (published insertedOrder)).basis = none := by
    decide +kernel
  have quoted : decideOnTick atmQuoting
      (recordTick (pipeAfter noDates atmQuoting 200000 oneOption (published insertedOrder)).trader callAtSix) callAtSix
      1000000000 ≠ [] := by decide +kernel
  refine ⟨⟨quoted, fun known => ?_⟩, fun known => ?_⟩
  · obtain ⟨-, -, ⟨text, margin, given, -⟩, -⟩ := known.placed _ (List.prefix_refl _) callAtSix 1000000000 quoted
    rw [unreported] at given
    cases given
  · have unblocked : (computeRiskGates (pipeAfter noDates atmQuoting 200000 oneOption
        (.inbound marginFrame 1 :: published .timedOut)).trader 1000000000).all = false := by decide +kernel
    have reported : (pipeAfter noDates atmQuoting 200000 oneOption
        (.inbound marginFrame 1 :: published .timedOut)).basis = some "50000" := by decide +kernel
    have zero : (pipeAfter noDates atmQuoting 200000 oneOption
        (.inbound marginFrame 1 :: published .timedOut)).trader.riskMarginPct = some 0 := by decide +kernel
    have parsed : parseFloat "50000" = some (.finite 50000) := by decide +kernel
    obtain ⟨pct, given, ⟨text, margin, same, read, based⟩, -⟩ :=
      known.opened _ (List.prefix_refl _) 1000000000 unblocked
    obtain rfl := Option.some.inj (zero.symm.trans given)
    obtain rfl := Option.some.inj (reported.symm.trans same)
    rw [parsed] at read
    obtain rfl := F64.finite.inj (Option.some.inj read)
    norm_num at based

end Corsair.Daemon
