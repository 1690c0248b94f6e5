import Corsair.Book.Aggregate
import Corsair.Daemon.Tasks
import Corsair.Lib.FileSystem
import Corsair.Lib.Machine

namespace Corsair.Snapshots

open Book Daemon Hedge Risk
open BrokerApi (NaiveDate Right)

-- payload.rs
structure PortfolioPerProduct where
  netDelta : ℚ
  netTheta : ℚ
  netVega : ℚ
  longCount : ℕ
  shortCount : ℕ

structure PositionSnapshot where
  product : String
  strike : ℚ
  expiry : NaiveDate
  right : Right
  quantity : ℤ
  avgFillPrice : ℚ
  currentPrice : ℚ
  delta : ℚ
  gamma : ℚ
  theta : ℚ
  vega : ℚ
  multiplier : ℚ

structure PortfolioSnapshot where
  netDelta : ℚ
  netTheta : ℚ
  netVega : ℚ
  netGamma : ℚ
  longCount : ℕ
  shortCount : ℕ
  grossPositions : ℕ
  fillsToday : ℕ
  realizedPnlPersisted : ℚ
  mtmPnl : ℚ
  dailyPnl : ℚ
  spreadCaptureToday : ℚ
  positions : List PositionSnapshot
  perProduct : HashMap String PortfolioPerProduct

structure KillSnapshot where
  killed : Bool
  source : Option String
  killType : Option String
  reason : Option KillReason

structure HedgeSnapshot where
  product : String
  hedgeQty : ℤ
  avgEntryF : ℚ
  realizedPnlUsd : ℚ
  mtmUsd : ℚ
  mode : String

structure AccountPayload where
  netLiquidation : ℚ
  maintenanceMargin : ℚ
  initialMargin : ℚ
  buyingPower : ℚ
  realizedPnlToday : ℚ
  ibkrScale : ℚ

structure Snapshot where
  schemaVersion : ℕ
  timestampNs : ℕ
  portfolio : PortfolioSnapshot
  kill : KillSnapshot
  hedges : List HedgeSnapshot
  account : AccountPayload
  underlying : HashMap String ℚ

-- kill.rs
def sourceLabel : KillSource → String
  | .risk => "risk"
  | .disconnect => "disconnect"
  | .dailyHalt => "daily_halt"
  | .reconciliation => "reconciliation"
  | .exceptionStorm => "exception_storm"
  | .operational => "operational"
  | .induced inner => "induced_" ++ sourceLabel inner

-- `{:?}` of the type, in lower case.
def typeLabel : KillType → String
  | .halt => "halt"
  | .flatten => "flatten"
  | .hedgeFlat => "hedgeflat"

-- publisher.rs, build and its parts.
def perProductOf (g : PortfolioGreeks) : PortfolioPerProduct :=
  ⟨g.netDelta, g.netTheta, g.netVega, g.longCount, g.shortCount⟩

def positionOf (p : Position) : PositionSnapshot where
  product := p.product
  strike := p.strike
  expiry := p.expiry
  right := p.right
  quantity := p.quantity
  avgFillPrice := p.avgFillPrice
  currentPrice := p.currentPrice
  delta := p.delta
  gamma := p.gamma
  theta := p.theta
  vega := p.vega
  multiplier := p.multiplier

def portfolioOf (portfolio : PortfolioState) (market : MarketView) : PortfolioSnapshot :=
  let agg := portfolio.aggregate
  let mtmPnl := portfolio.computeMtmPnl market
  { netDelta := agg.total.netDelta
    netTheta := agg.total.netTheta
    netVega := agg.total.netVega
    netGamma := agg.total.netGamma
    longCount := agg.total.longCount
    shortCount := agg.total.shortCount
    grossPositions := agg.total.grossPositions
    fillsToday := portfolio.fillsToday
    realizedPnlPersisted := portfolio.realizedPnlPersisted
    mtmPnl
    dailyPnl := portfolio.realizedPnlPersisted + mtmPnl
    spreadCaptureToday := portfolio.spreadCaptureToday
    positions := portfolio.positions.map positionOf
    perProduct := agg.perProduct.items.foldl (fun map entry => map.set entry.1 (perProductOf entry.2)) ∅ }

def killOf (risk : RiskMonitor) : KillSnapshot :=
  match risk.killed with
  | none => ⟨false, none, none, none⟩
  | some ev => ⟨true, some (sourceLabel ev.source), some (typeLabel ev.killType), some ev.reason⟩

def hedgeOf (market : MarketView) (m : HedgeManager) : HedgeSnapshot where
  product := m.cfg.product
  hedgeQty := m.hedgeQty
  avgEntryF := m.state.avgEntryF
  realizedPnlUsd := m.state.realizedPnlUsd
  mtmUsd := m.mtmUsd ((market.underlyingPrice m.cfg.product).getD 0)
  mode := match m.cfg.mode with
    | .observe => "observe"
    | .execute => "execute"

def underlyingOf (products : List String) (market : MarketView) : HashMap String ℚ :=
  products.foldl (fun map product => match market.underlyingPrice product with
    | some price => map.set product price
    | none => map) ∅

def build (portfolio : PortfolioState) (risk : RiskMonitor) (hedge : HedgeFanout) (market : MarketView)
    (account : AccountPayload) (now : ℕ) : Snapshot where
  schemaVersion := 1
  timestampNs := now
  portfolio := portfolioOf portfolio market
  kill := killOf risk
  hedges := hedge.managers.map (hedgeOf market)
  account
  underlying := underlyingOf portfolio.registry.products market

-- The data of the daemon under its locks, the scale being the constraint checker's.
structure Shared where
  runtime : Runtime
  ibkrScale : ℚ

-- tasks.rs, periodic_snapshot: the account and the scale are read under their own two
-- locks, which are released before those of the books are taken.
def accountOf (d : Shared) : AccountPayload :=
  let a := d.runtime.account
  ⟨a.netLiquidation, a.maintenanceMargin, a.initialMargin, a.buyingPower, a.realizedPnlToday, d.ibkrScale⟩

def snapshotOf (account : AccountPayload) (d : Shared) (now : ℕ) : Snapshot :=
  let r := d.runtime
  build r.portfolio r.risk r.hedge r.marketData.view account now

section Consistent

def weighed (figure : PositionSnapshot → ℚ) (positions : List PositionSnapshot) : ℚ :=
  (positions.map fun p => figure p * p.quantity).sum

-- What a reader finds when it sums the positions of a product itself.
def recount (positions : List PositionSnapshot) : PortfolioPerProduct where
  netDelta := weighed (·.delta) positions
  netTheta := weighed (·.theta) positions
  netVega := weighed (·.vega) positions
  longCount := (positions.filter (0 < ·.quantity)).length
  shortCount := (positions.filter (·.quantity < 0)).length

structure Consistent (snap : Snapshot) : Prop where
  totals : ⟨snap.portfolio.netDelta, snap.portfolio.netTheta, snap.portfolio.netVega, snap.portfolio.longCount,
    snap.portfolio.shortCount⟩ = recount snap.portfolio.positions
  gamma : snap.portfolio.netGamma = weighed (·.gamma) snap.portfolio.positions
  perProduct : ∀ product, snap.portfolio.perProduct.get product =
    if product ∈ snap.portfolio.positions.map (·.product) then
      some (recount (snap.portfolio.positions.filter (·.product = product)))
    else none
  gross : snap.portfolio.grossPositions = snap.portfolio.longCount + snap.portfolio.shortCount
  daily : snap.portfolio.dailyPnl = snap.portfolio.realizedPnlPersisted + snap.portfolio.mtmPnl
  kill : snap.kill.killed = snap.kill.source.isSome ∧ snap.kill.killed = snap.kill.reason.isSome

theorem weighed_positions (figure : PositionSnapshot → ℚ) (field : PortfolioGreeks → ℚ) (empty : field .zero = 0)
    (adds : ∀ g p, field (g.addPosition p) = field g + figure (positionOf p) * p.quantity) (ps : List Position) :
    field (ps.foldl .addPosition .zero) = weighed figure (ps.map positionOf) := by
  rw [foldl_field field (fun p => figure (positionOf p) * p.quantity) adds, empty, zero_add]
  unfold weighed
  rw [List.map_map]
  rfl

theorem recount_fold (ps : List Position) :
    perProductOf (ps.foldl .addPosition .zero) = recount (ps.map positionOf) := by
  have longs := total_longCount { PortfolioState.new ∅ with positions := ps }
  have shorts := total_shortCount { PortfolioState.new ∅ with positions := ps }
  unfold perProductOf recount
  rw [← weighed_positions (·.delta) (·.netDelta) rfl (fun _ _ => rfl),
    ← weighed_positions (·.theta) (·.netTheta) rfl (fun _ _ => rfl),
    ← weighed_positions (·.vega) (·.netVega) rfl (fun _ _ => rfl), List.filter_map, List.length_map, List.filter_map,
    List.length_map]
  exact congrArg₂ _ longs shorts

theorem perProduct_read (s : PortfolioState) (market : MarketView) (product : String) :
    (portfolioOf s market).perProduct.get product = (s.aggregate.perProduct.get product).map perProductOf :=
  HashMap.get_translated perProductOf _ _

theorem build_consistent (portfolio : PortfolioState) (risk : RiskMonitor) (hedge : HedgeFanout) (market : MarketView)
    (account : AccountPayload) (now : ℕ) : Consistent (build portfolio risk hedge market account now) := by
  constructor
  · exact recount_fold portfolio.positions
  · exact weighed_positions (·.gamma) (·.netGamma) rfl (fun _ _ => rfl) portfolio.positions
  · intro product
    change (portfolioOf portfolio market).perProduct.get product = _
    rw [perProduct_read, perProduct_get]
    have products : (portfolio.positions.map positionOf).map (·.product) = portfolio.positions.map (·.product) := by
      rw [List.map_map]
      rfl
    change _ = if product ∈ (portfolio.positions.map positionOf).map (·.product) then
      some (recount ((portfolio.positions.map positionOf).filter (·.product = product))) else none
    rw [products, List.filter_map, ← recount_fold]
    split <;> rfl
  · change portfolio.aggregate.total.grossPositions = _
    rw [total_grossPositions, ← longCount_add_shortCount]
    exact congrArg₂ _ (total_longCount portfolio).symm (total_shortCount portfolio).symm
  · rfl
  · change (killOf risk).killed = _ ∧ (killOf risk).killed = _
    unfold build killOf
    cases risk.killed <;> exact ⟨rfl, rfl⟩

end Consistent

open FileSystem

-- periodic_snapshot a lock scope, and publish and atomic_write a system call, at a time.
inductive Stage where
  | idle
  | accounted (account : AccountPayload)
  | writing (handle : ℕ) (snap : Snapshot) (rest : List UInt8)
  | synced (handle : ℕ) (snap : Snapshot)

structure Publisher (Name : Type) where
  shared : Shared
  disk : Disk Name UInt8
  stage : Stage
  writeCount : ℕ

-- Where the snapshot goes, by way of which file, and how serde_json writes it.
structure Target (Name : Type) where
  path : Name
  tmp : Name
  apart : path ≠ tmp
  toJson : Snapshot → List UInt8

-- The other tasks change the data in any way between two lock scopes of this one, the
-- snapshot task makes its next call or has one fail, a new daemon comes up in its place,
-- or the machine loses power first.
inductive PublishEvent where
  | changed (shared : Shared)
  | accounted
  | began (now : ℕ)
  | wrote (bytes : ℕ)
  | synced
  | renamed
  | failed
  | restarted (shared : Shared)
  | powerLoss (point : ℕ) (torn : ℕ → File UInt8) (shared : Shared)

def PublishEvent.isPowerLoss : PublishEvent → Bool
  | .powerLoss .. => true
  | _ => false

def PublishEvent.isRestart : PublishEvent → Bool
  | .restarted _ | .powerLoss .. => true
  | _ => false

-- What ends the time between the two lock scopes of a pass.
def PublishEvent.endsAccount : PublishEvent → Bool
  | .began _ | .failed | .restarted _ | .powerLoss .. => true
  | _ => false

section Step

variable {Name : Type} [DecidableEq Name] (t : Target Name)

-- Out comes the snapshot that has replaced the file.
def publishStep (s : Publisher Name) (e : PublishEvent) : Publisher Name × List Snapshot :=
  match e, s.stage with
  | .changed shared, _ => ({ s with shared }, [])
  | .accounted, .idle => ({ s with stage := .accounted (accountOf s.shared) }, [])
  | .began now, .accounted account =>
    let snap := snapshotOf account s.shared now
    let (disk, handle) := s.disk.create t.tmp
    ({ s with disk, stage := .writing handle snap (t.toJson snap) }, [])
  | .wrote bytes, .writing handle snap rest =>
    ({ s with disk := s.disk.append handle (rest.take bytes), stage := .writing handle snap (rest.drop bytes) }, [])
  | .synced, .writing handle snap [] => ({ s with disk := s.disk.sync handle, stage := .synced handle snap }, [])
  | .renamed, .synced _ snap =>
    ({ s with disk := s.disk.rename t.tmp t.path, stage := .idle, writeCount := s.writeCount + 1 }, [snap])
  | .failed, _ => ({ s with stage := .idle }, [])
  | .restarted shared, _ => (⟨shared, s.disk, .idle, 0⟩, [])
  | .powerLoss point torn shared, _ => (⟨shared, s.disk.powerLoss point torn, .idle, 0⟩, [])
  | _, _ => (s, [])

def Publisher.start (shared : Shared) : Publisher Name := ⟨shared, .empty, .idle, 0⟩

-- A pass that nothing stops, while other tasks change the data between its lock scopes.
def wholePass (changes : List Shared) (now bytes : ℕ) : List PublishEvent :=
  .accounted :: changes.map .changed ++ [.began now, .wrote bytes, .synced, .renamed]

-- The account as it stood when the pass that goes on read it.
def Accounted (start : Publisher Name) (events : List PublishEvent) (account : AccountPayload) : Prop :=
  ∃ past between, events = past ++ .accounted :: between ∧
    (Machine.after (publishStep t) start past).stage = .idle ∧ (∀ e ∈ between, e.endsAccount = false) ∧
    account = accountOf (Machine.after (publishStep t) start past).shared

-- The books as they stood at one moment, with the account of an earlier one of the same pass.
def Taken (start : Publisher Name) (events : List PublishEvent) (snap : Snapshot) : Prop :=
  ∃ past now later account, events = past ++ .began now :: later ∧ Accounted t start past account ∧
    snap = snapshotOf account (Machine.after (publishStep t) start past).shared now

def AllowedContent (start : Publisher Name) (events : List PublishEvent) (content : List UInt8) : Prop :=
  ∃ snap, Taken t start events snap ∧ content = t.toJson snap

-- What each stage has read or put in the temporary file.
def StageHeld (start : Publisher Name) (events : List PublishEvent) (s : Publisher Name) : Prop :=
  match s.stage with
  | .idle => True
  | .accounted account => Accounted t start events account
  | .writing handle snap rest => s.disk.dir t.tmp = some handle ∧ Taken t start events snap ∧
      (s.disk.files handle).content ++ rest = t.toJson snap
  | .synced handle snap => s.disk.dir t.tmp = some handle ∧ Taken t start events snap ∧
      s.disk.files handle = ⟨t.toJson snap, true⟩

structure Publishes (start : Publisher Name) (events : List PublishEvent) (replaced : List Snapshot)
    (s : Publisher Name) : Prop where
  held : Replaced t.path t.tmp (AllowedContent t start events) s.disk
  stage : StageHeld t start events s
  taken : ∀ snap ∈ replaced, Taken t start events snap
  latest : (∀ e ∈ events, e.isPowerLoss = false) → s.disk.read t.path = replaced.getLast?.map t.toJson
  count : (∀ e ∈ events, e.isRestart = false) → s.writeCount = replaced.length

variable {t} {start s : Publisher Name} {events : List PublishEvent} {replaced : List Snapshot}

theorem Taken.later {snap : Snapshot} (taken : Taken t start events snap) (e : PublishEvent) :
    Taken t start (events ++ [e]) snap := by
  obtain ⟨past, now, later, account, same, read, built⟩ := taken
  exact ⟨past, now, later ++ [e], account, by simp [same], read, built⟩

theorem Accounted.later {account : AccountPayload} (read : Accounted t start events account) {e : PublishEvent}
    (between : e.endsAccount = false) : Accounted t start (events ++ [e]) account := by
  obtain ⟨past, passed, same, idle, quiet, taken⟩ := read
  refine ⟨past, passed ++ [e], by simp [same], idle, ?_, taken⟩
  intro other member
  rcases List.mem_append.mp member with earlier | last
  · exact quiet other earlier
  · cases List.mem_singleton.mp last
    exact between

theorem Replaced.later (held : Replaced t.path t.tmp (AllowedContent t start events) s.disk) (e : PublishEvent) :
    Replaced t.path t.tmp (AllowedContent t start (events ++ [e])) s.disk := by
  apply held.mono
  intro content allowed
  obtain ⟨snap, taken, same⟩ := allowed
  exact ⟨snap, taken.later e, same⟩

theorem held_idle {e : PublishEvent} {next : Publisher Name} (idle : next.stage = .idle) :
    StageHeld t start (events ++ [e]) next := by
  unfold StageHeld
  rw [idle]
  trivial

theorem StageHeld.later (held : StageHeld t start events s) {e : PublishEvent} {next : Publisher Name}
    (between : (∃ account, s.stage = .accounted account) → e.endsAccount = false) (disk : next.disk = s.disk)
    (stage : next.stage = s.stage) : StageHeld t start (events ++ [e]) next := by
  unfold StageHeld at *
  rw [stage, disk]
  cases own : s.stage with
  | idle => trivial
  | accounted account =>
    rw [own] at held
    exact held.later (between ⟨account, own⟩)
  | writing handle snap rest =>
    rw [own] at held
    exact ⟨held.1, held.2.1.later e, held.2.2⟩
  | synced handle snap =>
    rw [own] at held
    exact ⟨held.1, held.2.1.later e, held.2.2⟩

-- A step that leaves the file alone.
theorem quiet_publishes (given : Publishes t start events replaced s) (e : PublishEvent) {next : Publisher Name}
    (held : Replaced t.path t.tmp (AllowedContent t start (events ++ [e])) next.disk)
    (stage : StageHeld t start (events ++ [e]) next)
    (read : e.isPowerLoss = false → next.disk.read t.path = s.disk.read t.path)
    (count : e.isRestart = false → next.writeCount = s.writeCount) :
    Publishes t start (events ++ [e]) (replaced ++ []) next := by
  rw [List.append_nil]
  constructor
  · exact held
  · exact stage
  · exact fun snap member => (given.taken snap member).later e
  · intro none
    rw [read (none e (by simp)), given.latest fun other member => none other (by simp [member])]
  · intro none
    rw [count (none e (by simp)), given.count fun other member => none other (by simp [member])]

theorem began_step (given : Publishes t start events replaced (Machine.after (publishStep t) start events))
    {account : AccountPayload} (read : (Machine.after (publishStep t) start events).stage = .accounted account) (now : ℕ) :
    let s := Machine.after (publishStep t) start events
    Publishes t start (events ++ [.began now]) (replaced ++ (publishStep t s (.began now)).2)
      (publishStep t s (.began now)).1 := by
  intro s
  let snap := snapshotOf account s.shared now
  have own : s.stage = .accounted account := read
  have step : publishStep t s (.began now) =
      ({ s with disk := (s.disk.create t.tmp).1, stage := .writing (s.disk.create t.tmp).2 snap (t.toJson snap) }, []) := by
    simp only [publishStep, own]
    rfl
  have stage : StageHeld t start events s := given.stage
  simp only [StageHeld, own] at stage
  rw [step]
  apply quiet_publishes given
  · exact create_replaced (Replaced.later given.held _) t.apart
  · refine ⟨create_opens _ _, ⟨events, now, [], account, rfl, stage, rfl⟩, ?_⟩
    rw [create_empty]
    rfl
  · exact fun _ => create_read given.held t.apart
  · exact fun _ => rfl

theorem accounted_step (given : Publishes t start events replaced (Machine.after (publishStep t) start events))
    (idle : (Machine.after (publishStep t) start events).stage = .idle) :
    let s := Machine.after (publishStep t) start events
    Publishes t start (events ++ [.accounted]) (replaced ++ (publishStep t s .accounted).2)
      (publishStep t s .accounted).1 := by
  intro s
  have own : s.stage = .idle := idle
  simp only [publishStep, own]
  apply quiet_publishes given
  · exact Replaced.later given.held _
  · exact ⟨events, [], rfl, idle, by simp, rfl⟩
  · exact fun _ => rfl
  · exact fun _ => rfl

theorem publish_step (given : Publishes t start events replaced (Machine.after (publishStep t) start events))
    (e : PublishEvent) :
    let s := Machine.after (publishStep t) start events
    Publishes t start (events ++ [e]) (replaced ++ (publishStep t s e).2) (publishStep t s e).1 := by
  intro s
  have later := Replaced.later given.held e
  have unmoved (between : (∃ account, s.stage = .accounted account) → e.endsAccount = false) :
      Publishes t start (events ++ [e]) (replaced ++ []) s :=
    quiet_publishes given e later (given.stage.later between rfl rfl) (fun _ => rfl) (fun _ => rfl)
  cases e with
  | changed shared =>
    exact quiet_publishes given _ later (given.stage.later (fun _ => rfl) rfl rfl) (fun _ => rfl) (fun _ => rfl)
  | failed => exact quiet_publishes given _ later (held_idle rfl) (fun _ => rfl) (fun _ => rfl)
  | restarted shared => exact quiet_publishes given _ later (held_idle rfl) (fun _ => rfl) (by simp [PublishEvent.isRestart])
  | powerLoss point torn shared =>
    exact quiet_publishes given _ (powerLoss_replaced later point torn) (held_idle rfl)
      (by simp [PublishEvent.isPowerLoss]) (by simp [PublishEvent.isRestart])
  | accounted =>
    cases own : s.stage with
    | idle => exact accounted_step given own
    | _ =>
      simp only [publishStep, own]
      exact unmoved fun _ => rfl
  | began now =>
    cases own : s.stage with
    | accounted account => exact began_step given own now
    | _ =>
      simp only [publishStep, own]
      refine unmoved ?_
      rintro ⟨account, read⟩
      rw [own] at read
      cases read
  | wrote bytes =>
    cases own : s.stage with
    | writing handle snap rest =>
      have stage : StageHeld t start events s := given.stage
      simp only [StageHeld, own] at stage
      obtain ⟨opened, taken, so_far⟩ := stage
      simp only [publishStep, own]
      apply quiet_publishes given
      · exact setFile_replaced later opened _
      · refine ⟨opened, taken.later _, ?_⟩
        simp only [Disk.append, Disk.setFile, Function.update_self]
        rw [List.append_assoc, List.take_append_drop, so_far]
      · exact fun _ => setFile_read given.held opened _
      · exact fun _ => rfl
    | _ =>
      simp only [publishStep, own]
      exact unmoved fun _ => rfl
  | synced =>
    cases own : s.stage with
    | writing handle snap rest =>
      cases rest with
      | nil =>
        have stage : StageHeld t start events s := given.stage
        simp only [StageHeld, own, List.append_nil] at stage
        obtain ⟨opened, taken, whole⟩ := stage
        simp only [publishStep, own]
        apply quiet_publishes given
        · exact setFile_replaced later opened _
        · refine ⟨opened, taken.later _, ?_⟩
          simp only [Disk.sync, Disk.setFile, Function.update_self]
          rw [whole]
        · exact fun _ => setFile_read given.held opened _
        · exact fun _ => rfl
      | cons byte rest =>
        simp only [publishStep, own]
        exact unmoved fun _ => rfl
    | _ =>
      simp only [publishStep, own]
      exact unmoved fun _ => rfl
  | renamed =>
    cases own : s.stage with
    | synced handle snap =>
      have stage : StageHeld t start events s := given.stage
      simp only [StageHeld, own] at stage
      obtain ⟨opened, taken, whole⟩ := stage
      simp only [publishStep, own]
      constructor
      · apply rename_replaced later t.apart opened
        · rw [whole]
        · rw [whole]
          exact ⟨snap, taken.later _, rfl⟩
      · exact held_idle rfl
      · intro other member
        rcases List.mem_append.mp member with earlier | last
        · exact (given.taken other earlier).later _
        · cases List.mem_singleton.mp last
          exact taken.later _
      · intro _
        rw [rename_read t.apart opened, whole]
        simp
      · intro none
        have counted := given.count fun other member => none other (by simp [member])
        simpa using counted
    | _ =>
      simp only [publishStep, own]
      exact unmoved fun _ => rfl

theorem changed_after (s : Publisher Name) (changes : List Shared) :
    Machine.after (publishStep t) s (changes.map .changed) = { s with shared := changes.getLastD s.shared } := by
  induction changes generalizing s with
  | nil => rfl
  | cons shared rest next =>
    rw [List.map_cons, Machine.after, next, List.getLastD_cons]
    rfl

theorem pass_renews (idle : s.stage = .idle) (changes : List Shared) (now bytes : ℕ)
    (whole : (t.toJson (snapshotOf (accountOf s.shared) (changes.getLastD s.shared) now)).length ≤ bytes) :
    (Machine.after (publishStep t) s (wholePass changes now bytes)).disk.read t.path =
      some (t.toJson (snapshotOf (accountOf s.shared) (changes.getLastD s.shared) now)) := by
  have first : (publishStep t s .accounted).1 = { s with stage := .accounted (accountOf s.shared) } := by
    simp only [publishStep, idle]
  unfold wholePass
  rw [List.cons_append, Machine.after, first, Machine.after_append, changed_after]
  simp only [Machine.after, publishStep, List.drop_of_length_le whole, List.take_of_length_le whole]
  generalize snapshotOf _ _ now = snap
  have opened : (((s.disk.create t.tmp).1.append (s.disk.create t.tmp).2 (t.toJson snap)).sync
      (s.disk.create t.tmp).2).dir t.tmp = some (s.disk.create t.tmp).2 := create_opens s.disk t.tmp
  rw [rename_read t.apart opened]
  simp only [Disk.sync, Disk.append, Disk.setFile, Function.update_self, create_empty, List.nil_append]

end Step

-- What a reader of the snapshot file may rely on, at any point.
structure Dependable {Name : Type} [DecidableEq Name] (t : Target Name) (shared : Shared)
    (events : List PublishEvent) : Prop where
  whole : ∀ content, (Machine.after (publishStep t) (.start shared) events).disk.read t.path = some content →
    ∃ snap, Taken t (.start shared) events snap ∧ Consistent snap ∧ content = t.toJson snap
  latest : (∀ e ∈ events, e.isPowerLoss = false) →
    (Machine.after (publishStep t) (.start shared) events).disk.read t.path =
      (Machine.emitted (publishStep t) (.start shared) events).getLast?.map t.toJson
  count : (∀ e ∈ events, e.isRestart = false) →
    (Machine.after (publishStep t) (.start shared) events).writeCount =
      (Machine.emitted (publishStep t) (.start shared) events).length
  renews : ∀ past changes now bytes, events = past ++ wholePass changes now bytes →
    let s := Machine.after (publishStep t) (.start shared) past
    let snap := snapshotOf (accountOf s.shared) (changes.getLastD s.shared) now
    s.stage = .idle → (t.toJson snap).length ≤ bytes →
      (Machine.after (publishStep t) (.start shared) events).disk.read t.path = some (t.toJson snap)

theorem start_publishes {Name : Type} [DecidableEq Name] (t : Target Name) (shared : Shared) :
    Publishes t (.start shared) [] [] (.start shared) := by
  constructor
  · exact empty_replaced
  · trivial
  · simp
  · exact fun _ => rfl
  · exact fun _ => rfl

theorem snapshot_dependable {Name : Type} [DecidableEq Name] (t : Target Name) (shared : Shared)
    (events : List PublishEvent) : Dependable t shared events := by
  have reached := (@Machine.traces _ _ _ (publishStep t)
    (fun past out s => s = Machine.after (publishStep t) (.start shared) past ∧
      Publishes t (.start shared) past out s) ?_ _ ⟨rfl, start_publishes t shared⟩ events).2
  · constructor
    · intro content found
      obtain ⟨snap, taken, same⟩ := reached.held.read found
      refine ⟨snap, taken, ?_, same⟩
      obtain ⟨_, _, _, _, _, _, built⟩ := taken
      rw [built]
      exact build_consistent _ _ _ _ _ _
    · exact reached.latest
    · exact reached.count
    · intro past changes now bytes split s snap idle whole
      rw [split, Machine.after_append]
      exact pass_renews idle changes now bytes whole
  · intro past out s e held
    obtain ⟨same, given⟩ := held
    subst same
    refine ⟨?_, publish_step given e⟩
    rw [Machine.after_append]
    rfl

end Corsair.Snapshots
