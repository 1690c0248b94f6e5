import Corsair.Daemon.HedgeReconcile
import Corsair.Lib.Register
import Corsair.Native.Broker

namespace Corsair.Daemon

open BrokerApi Book Hedge

-- runtime.rs, seed_positions_from_broker.
structure HedgeSeed where
  product : String
  qty : ℤ
  avgEntryF : ℚ

def seedOf (pos : BrokerApi.Position) : HedgeSeed where
  product := pos.contract.symbol
  qty := pos.quantity
  avgEntryF := pos.avgCost.exact / if pos.contract.multiplier.positive then pos.contract.multiplier.exact else 25000

def seedOption (pos : BrokerApi.Position) : Option Book.Position := do
  if pos.contract.kind ≠ .option then none
  let right ← pos.contract.right
  let strike ← pos.contract.strike
  if ¬pos.contract.multiplier.positive then none
  return {
    product := pos.contract.symbol
    strike := strike.exact
    expiry := pos.contract.expiry
    right
    quantity := pos.quantity
    avgFillPrice := pos.avgCost.exact / pos.contract.multiplier.exact
    multiplier := pos.contract.multiplier.exact
    delta := 0, gamma := 0, theta := 0, vega := 0, currentPrice := 0 }

def seedHedge (pos : BrokerApi.Position) : Option HedgeSeed :=
  if pos.contract.kind = .future ∧ pos.quantity ≠ 0 then some (seedOf pos) else none

def applySeed (h : HedgeFanout) (seed : HedgeSeed) : HedgeFanout :=
  h.forProductMut seed.product fun mgr => (mgr.reconcileWithPosition seed.qty seed.avgEntryF).1

def seedPositionsFromBroker (r : Runtime) (positions : Except BrokerError (List BrokerApi.Position)) :
    Except BrokerError Runtime := do
  let known := (← positions).filter (·.contract.symbol ∈ r.portfolio.registry.products)
  return { r with
    portfolio := r.portfolio.replacePositions (known.filterMap seedOption)
    hedge := (known.filterMap seedHedge).foldl applySeed r.hedge }

inductive ReconcileAt where | boot | periodic
  deriving DecidableEq

-- The hedge managers after a reconcile with those positions.
def reconciled (r : Runtime) (rows : List BrokerApi.Position) : ReconcileAt → HedgeFanout
  | .boot => match seedPositionsFromBroker r (.ok rows) with
    | .ok next => next.hedge
    | .error _ => r.hedge
  | .periodic => reconcileHedges r.hedge (.ok rows)

section Reports

open Native

-- The adapter's state once it has routed the messages.
def positioned (chrono : Chrono) (messages : List PositionMsg) : BrokerState :=
  messages.foldl (routePosition chrono) .default

def positionKey (p : PositionMsg) : String × ℤ := (p.account, p.contract.conId)

-- What the broker last said of the contract, over all accounts.
def reportedQty (messages : List PositionMsg) (instrument : InstrumentId) : ℤ :=
  (((messages.map positionKey).dedup.filter fun key => wrapU64 key.2 = instrument).map fun key =>
    (Register.last positionKey (·.position.asI32) messages key).getD 0).sum

-- A closed position needs no contract kind to be taken off the cache.
def readable (p : PositionMsg) : Bool := p.position.isZero || (parseKind p.contract.secType).isSome

-- The broker's last readable word on some future of the symbol is an open position
-- of that quantity.
def HoldsFuture (messages : List PositionMsg) (symbol : String) (qty : ℤ) : Prop :=
  ∃ key p, Register.last positionKey id (messages.filter readable) key = some p ∧ ¬p.position.isZero ∧
    parseKind p.contract.secType = some .future ∧ p.contract.symbol = symbol ∧ p.position.asI32 = qty

end Reports

-- The manager is the one `for_product_mut` finds for its product.
def Found (h : HedgeFanout) (i : ℕ) (m : HedgeManager) : Prop := m.cfg.product ∉ (h.managers.take i).map (·.cfg.product)

-- An open future of the manager's symbol that the reconcile writes into it.
def Writes (r : Runtime) (messages : List Native.PositionMsg) (i : ℕ) (m : HedgeManager) (qty : ℤ) : ReconcileAt → Prop
  | .periodic => Found r.hedge i m ∧ HoldsFuture messages m.cfg.product qty
  | .boot => Found r.hedge i m ∧ HoldsFuture messages m.cfg.product qty ∧ qty ≠ 0 ∧
      m.cfg.product ∈ r.portfolio.registry.products

-- The cache yields its positions in any order.
def ReconcileRefines (chrono : Native.Chrono) (r : Runtime) (messages : List Native.PositionMsg) (step : ReconcileAt) : Prop :=
  ∀ rows : List BrokerApi.Position, rows.Perm (positioned chrono messages).positionList →
    ∀ m ∈ (reconciled r rows step).managers, ∀ contract, m.hedgeContract = some contract →
      m.hedgeQty = reportedQty messages contract.instrumentId

section Managers

theorem update_products (product : String) (f : HedgeManager → HedgeManager) (kept : ∀ m, (f m).cfg = m.cfg)
    (managers : List HedgeManager) :
    (HedgeFanout.update product f managers).map (·.cfg.product) = managers.map (·.cfg.product) := by
  induction managers with
  | nil => rfl
  | cons m rest next =>
    unfold HedgeFanout.update
    split
    · simp [kept]
    · simp [next]

theorem update_get (product : String) (f : HedgeManager → HedgeManager) {managers : List HedgeManager} {i : ℕ}
    {m : HedgeManager} (held : managers[i]? = some m) :
    (HedgeFanout.update product f managers)[i]? =
      some (if m.cfg.product = product ∧ product ∉ (managers.take i).map (·.cfg.product) then f m else m) := by
  induction managers generalizing i with
  | nil => cases held
  | cons first rest next =>
    unfold HedgeFanout.update
    cases i with
    | zero =>
      cases held
      by_cases own : m.cfg.product = product
      · simp [own]
      · simp [own]
    | succ n =>
      have later := next held
      by_cases own : first.cfg.product = product
      · simpa [own] using held
      · rw [if_neg own, List.getElem?_cons_succ, later]
        simp [Ne.symm own]

theorem applySeed_products (h : HedgeFanout) (seed : HedgeSeed) :
    (applySeed h seed).managers.map (·.cfg.product) = h.managers.map (·.cfg.product) :=
  update_products _ _ (fun m => (m.reconcile_kept _ _).1) _

theorem applySeeds_products (h : HedgeFanout) (seeds : List HedgeSeed) :
    (seeds.foldl applySeed h).managers.map (·.cfg.product) = h.managers.map (·.cfg.product) := by
  induction seeds generalizing h with
  | nil => rfl
  | cons seed rest next => exact (next _).trans (applySeed_products h seed)

open Classical in
-- A manager ends with the last seed of its product, if it is the one they go to.
theorem applySeeds_get {h : HedgeFanout} {i : ℕ} {m : HedgeManager} (held : h.managers[i]? = some m)
    (seeds : List HedgeSeed) :
    ∃ last, (seeds.foldl applySeed h).managers[i]? = some last ∧ last.cfg = m.cfg ∧
      last.hedgeContract = m.hedgeContract ∧
      last.hedgeQty =
        if Found h i m then (Register.last HedgeSeed.product HedgeSeed.qty seeds m.cfg.product).getD m.hedgeQty
        else m.hedgeQty := by
  induction seeds using List.reverseRecOn with
  | nil => exact ⟨m, held, rfl, rfl, by simp [Register.last]⟩
  | append_singleton seeds seed next =>
    obtain ⟨mgr, at_i, cfg, contract, qty⟩ := next
    have products := applySeeds_products h seeds
    have first : (((seeds.foldl applySeed h).managers.take i).map (·.cfg.product)) =
        (h.managers.take i).map (·.cfg.product) := by
      rw [List.map_take, products, ← List.map_take]
    have written := update_get seed.product
      (fun mgr => (mgr.reconcileWithPosition seed.qty seed.avgEntryF).1) at_i
    rw [first, cfg] at written
    rw [List.foldl_append, Register.last_snoc]
    refine ⟨_, written, ?_⟩
    by_cases own : m.cfg.product = seed.product
    · by_cases found : Found h i m
      · have goes : m.cfg.product = seed.product ∧ seed.product ∉ (h.managers.take i).map (·.cfg.product) :=
          ⟨own, own ▸ found⟩
        obtain ⟨same, resolved, -⟩ := mgr.reconcile_kept seed.qty seed.avgEntryF
        rw [if_pos goes, if_pos found, if_pos own.symm]
        exact ⟨same.trans cfg, resolved.trans contract, HedgeManager.reconcile_qty ..⟩
      · have elsewhere : ¬(m.cfg.product = seed.product ∧ seed.product ∉ (h.managers.take i).map (·.cfg.product)) :=
          fun goes => found (by rw [Found, own]; exact goes.2)
        rw [if_neg elsewhere, if_neg found]
        rw [if_neg found] at qty
        exact ⟨cfg, contract, qty⟩
    · have elsewhere : ¬(m.cfg.product = seed.product ∧ seed.product ∉ (h.managers.take i).map (·.cfg.product)) :=
        fun goes => own goes.1
      rw [if_neg elsewhere, if_neg (Ne.symm own)]
      exact ⟨cfg, contract, qty⟩

end Managers

section Cache

open Native

variable {chrono : Chrono}

theorem position_read {p : PositionMsg} {pos : BrokerApi.Position} (read : nativeToPosition chrono p = some pos) :
    parseKind p.contract.secType = some pos.contract.kind ∧ pos.contract.symbol = p.contract.symbol ∧
      pos.quantity = p.position.asI32 := by
  unfold nativeToPosition decodedContract at read
  simp only [Option.bind_eq_bind, Option.bind_eq_some_iff, Option.some.injEq, Option.pure_def] at read
  obtain ⟨contract, ⟨kind, parsed, rfl⟩, rfl⟩ := read
  exact ⟨parsed, rfl, rfl⟩

theorem position_readable (p : PositionMsg) {kind : ContractKind} (parsed : parseKind p.contract.secType = some kind) :
    ∃ pos, nativeToPosition chrono p = some pos := by
  simp [nativeToPosition, decodedContract, parsed]

-- The cache holds what the last readable message of each key says, unless that closed it.
theorem positioned_get (messages : List PositionMsg) (key : String × ℤ) :
    (positioned chrono messages).positions.get key =
      ((Register.last positionKey id (messages.filter readable) key).filter (¬·.position.isZero)).bind
        (nativeToPosition chrono) := by
  induction messages using List.reverseRecOn with
  | nil => rfl
  | append_singleton messages p next =>
    have routed : positioned chrono (messages ++ [p]) = routePosition chrono (positioned chrono messages) p := by
      simp [positioned]
    rw [routed, List.filter_append]
    unfold routePosition
    by_cases zero : p.position.isZero
    · simp only [zero, if_true, HashMap.get_remove, List.filter_cons, readable, Bool.true_or, List.filter_nil,
        Register.last_snoc]
      by_cases own : key = (p.account, p.contract.conId)
      · simp [own, positionKey, Option.filter_some, zero]
      · have other : ¬positionKey p = key := fun same => own same.symm
        rw [if_neg own, if_neg other, next]
    · cases parsed : parseKind p.contract.secType with
      | none =>
        have unread : nativeToPosition chrono p = none := by simp [nativeToPosition, decodedContract, parsed]
        simp only [zero, unread, List.filter_cons, readable, parsed]
        simpa using next
      | some kind =>
        obtain ⟨pos, read⟩ := @position_readable chrono p kind parsed
        simp only [zero, read, List.filter_cons, readable, parsed, Option.isSome_some, Bool.or_true,
          if_true, List.filter_nil, Register.last_snoc, Bool.false_eq_true, if_false]
        rw [HashMap.get_set]
        by_cases own : key = (p.account, p.contract.conId)
        · simp [own, positionKey, Option.filter_some, zero, read]
        · have other : ¬positionKey p = key := fun same => own same.symm
          rw [if_neg own, if_neg other, next]

theorem holdsFuture_iff (messages : List PositionMsg) (symbol : String) (qty : ℤ) :
    HoldsFuture messages symbol qty ↔ ∃ pos ∈ (positioned chrono messages).positionList,
      pos.contract.kind = .future ∧ pos.contract.symbol = symbol ∧ pos.quantity = qty := by
  constructor
  · intro holds
    obtain ⟨key, p, last, opened, parsed, own, amount⟩ := holds
    obtain ⟨pos, read⟩ := @position_readable chrono p .future parsed
    obtain ⟨kind, same, quantity⟩ := position_read read
    have cached : (positioned chrono messages).positions.get key = some pos := by
      rw [positioned_get, last]
      simpa [Option.filter_some, opened] using read
    refine ⟨pos, HashMap.mem_values.mpr ⟨key, cached⟩, ?_, same.trans own, quantity.trans amount⟩
    rw [parsed] at kind
    exact (Option.some.inj kind).symm
  · intro held
    obtain ⟨pos, member, future, own, amount⟩ := held
    obtain ⟨key, cached⟩ := HashMap.mem_values.mp member
    rw [positioned_get] at cached
    obtain ⟨p, last, read⟩ := Option.bind_eq_some_iff.mp cached
    obtain ⟨last, opened⟩ := Option.filter_eq_some_iff.mp last
    obtain ⟨kind, same, quantity⟩ := position_read read
    refine ⟨key, p, last, by simpa using opened, kind.trans (congrArg some future), same.symm.trans own,
      quantity.symm.trans amount⟩

end Cache

section Steps

variable (r : Runtime)

-- What a reconcile takes of a position.
def seedAt : ReconcileAt → BrokerApi.Position → Option HedgeSeed
  | .periodic, pos => if pos.contract.kind = .future then some (seedOf pos) else none
  | .boot, pos => if pos.contract.symbol ∈ r.portfolio.registry.products then seedHedge pos else none

theorem reconciled_seeds (rows : List BrokerApi.Position) (step : ReconcileAt) :
    reconciled r rows step = (rows.filterMap (seedAt r step)).foldl applySeed r.hedge := by
  cases step with
  | boot =>
    have taken : (rows.filter (·.contract.symbol ∈ r.portfolio.registry.products)).filterMap seedHedge =
        rows.filterMap (seedAt r .boot) := by
      rw [List.filterMap_filter]
      refine List.filterMap_congr fun pos _ => ?_
      simp [seedAt]
    rw [← taken]
    rfl
  | periodic =>
    simp only [reconciled, reconcileHedges]
    induction rows generalizing r with
    | nil => rfl
    | cons pos rest next =>
      rw [List.foldl_cons]
      by_cases future : pos.contract.kind = .future
      · have seeded : seedAt r .periodic pos = some (seedOf pos) := if_pos future
        have applied : reconcilePosition r.hedge pos = applySeed r.hedge (seedOf pos) := by
          simp [reconcilePosition, future, applySeed, seedOf]
        rw [List.filterMap_cons_some seeded, List.foldl_cons, applied]
        exact next { r with hedge := applySeed r.hedge (seedOf pos) }
      · have skipped : seedAt r .periodic pos = none := if_neg future
        have kept : reconcilePosition r.hedge pos = r.hedge := by
          simp [reconcilePosition, future]
        rw [List.filterMap_cons_none skipped, kept]
        exact next r

theorem writes_iff (chrono : Native.Chrono) (messages : List Native.PositionMsg) (i : ℕ) (m : HedgeManager) (qty : ℤ)
    (step : ReconcileAt) :
    Writes r messages i m qty step ↔ Found r.hedge i m ∧
      ∃ pos ∈ (positioned chrono messages).positionList, ∃ seed, seedAt r step pos = some seed ∧
        seed.product = m.cfg.product ∧ seed.qty = qty := by
  cases step with
  | periodic =>
    unfold Writes
    rw [@holdsFuture_iff chrono]
    simp [seedAt, seedOf]
  | boot =>
    unfold Writes
    rw [@holdsFuture_iff chrono]
    constructor
    · intro writes
      obtain ⟨found, ⟨pos, member, future, own, amount⟩, opened, known⟩ := writes
      refine ⟨found, pos, member, seedOf pos, ?_, own, amount⟩
      rw [← own] at known
      rw [← amount] at opened
      simp [seedAt, seedHedge, known, future, opened]
    · intro written
      obtain ⟨found, pos, member, seed, taken, own, amount⟩ := written
      simp only [seedAt, seedHedge] at taken
      split at taken
      · rename_i known
        split at taken
        · rename_i counted
          cases taken
          refine ⟨found, ⟨pos, member, counted.1, own, amount⟩, ?_, ?_⟩
          · rw [← amount]
            exact counted.2
          · rw [← own]
            exact known
        · cases taken
      · cases taken

variable {r}

theorem writes_last {chrono : Native.Chrono} {messages : List Native.PositionMsg} {i : ℕ} {m : HedgeManager} {qty : ℤ}
    {step : ReconcileAt} (writes : Writes r messages i m qty step) :
    ∃ rows : List BrokerApi.Position, rows.Perm (positioned chrono messages).positionList ∧
      Register.last HedgeSeed.product HedgeSeed.qty (rows.filterMap (seedAt r step)) m.cfg.product = some qty := by
  obtain ⟨-, pos, member, seed, taken, own, amount⟩ := (writes_iff r chrono messages i m qty step).mp writes
  obtain ⟨early, late, split⟩ := List.append_of_mem member
  refine ⟨early ++ late ++ [pos], ?_, ?_⟩
  · rw [split]
    exact (List.perm_append_singleton pos (early ++ late)).trans List.perm_middle.symm
  · rw [List.filterMap_append, List.filterMap_cons_some taken, List.filterMap_nil, Register.last_snoc, if_pos own,
      amount]

theorem last_writes {chrono : Native.Chrono} {messages : List Native.PositionMsg} {i : ℕ} {m : HedgeManager}
    (found : Found r.hedge i m) {step : ReconcileAt} {rows : List BrokerApi.Position}
    (order : rows.Perm (positioned chrono messages).positionList) :
    (∃ qty, Writes r messages i m qty step ∧
      Register.last HedgeSeed.product HedgeSeed.qty (rows.filterMap (seedAt r step)) m.cfg.product = some qty) ∨
    ((∀ qty, ¬Writes r messages i m qty step) ∧
      Register.last HedgeSeed.product HedgeSeed.qty (rows.filterMap (seedAt r step)) m.cfg.product = none) := by
  cases last : Register.last HedgeSeed.product HedgeSeed.qty (rows.filterMap (seedAt r step)) m.cfg.product with
  | some qty =>
    obtain ⟨seed, member, own, amount⟩ := Register.last_held _ _ last
    obtain ⟨pos, held, taken⟩ := List.mem_filterMap.mp member
    exact .inl ⟨qty, (writes_iff r chrono messages i m qty step).mpr
      ⟨found, pos, order.mem_iff.mp held, seed, taken, own, amount⟩, rfl⟩
  | none =>
    refine .inr ⟨fun qty writes => ?_, rfl⟩
    obtain ⟨-, pos, held, seed, taken, own, -⟩ := (writes_iff r chrono messages i m qty step).mp writes
    exact Register.last_absent _ _ last seed (List.mem_filterMap.mpr ⟨pos, order.mem_iff.mpr held, taken⟩) own

end Steps

section Closed

open Native

def hgDecoded : ContractDecoded where
  conId := 77
  symbol := "HG"
  secType := "FUT"
  lastTradeDate := "20260626"
  strike := .finite 0
  right := ""
  multiplier := "25000"
  exchange := "COMEX"
  primaryExchange := ""
  currency := "USD"
  localSymbol := "HGM6"
  tradingClass := "HG"

def closed : PositionMsg := ⟨"DU1", hgDecoded, .finite 0, .finite 0⟩

def longThree : Runtime where
  mode := .live
  config := ⟨true, some "DU1"⟩
  portfolio := .new (ProductRegistry.register ∅ ⟨"HG", 25000, 3/10⟩)
  risk := .new Risk.hgLimits
  hedge := ⟨[{ hgManager with state := ⟨3, 6, 0⟩ }]⟩
  marketData := .new
  account := ⟨0, 0, 0, 0, 0, 0⟩

theorem closed_kept (step : ReconcileAt) : ¬ReconcileRefines noDates longThree [closed] step := by
  intro refines
  have empty : (positioned noDates [closed]).positionList = [] := by decide +kernel
  have held : ({ hgManager with state := ⟨3, 6, 0⟩ } : HedgeManager) ∈ (reconciled longThree [] step).managers := by
    cases step with
    | boot => exact List.mem_singleton.mpr rfl
    | periodic => exact List.mem_singleton.mpr rfl
  have kept := refines [] (by rw [empty]) _ held hgFuture rfl
  revert kept
  decide +kernel

end Closed

-- The broker has closed the hedge contract, and the manager keeps its three.
theorem closed_position_kept :
    ¬ReconcileRefines noDates longThree [closed] .boot ∧ ¬ReconcileRefines noDates longThree [closed] .periodic :=
  ⟨closed_kept .boot, closed_kept .periodic⟩

theorem reconcile_refines_iff {chrono : Native.Chrono} {r : Runtime} {messages : List Native.PositionMsg}
    {step : ReconcileAt} :
    ReconcileRefines chrono r messages step ↔
      ∀ i m contract, r.hedge.managers[i]? = some m → m.hedgeContract = some contract →
        (∀ qty, Writes r messages i m qty step → qty = reportedQty messages contract.instrumentId) ∧
        ((∀ qty, ¬Writes r messages i m qty step) → m.hedgeQty = reportedQty messages contract.instrumentId) := by
  constructor
  · intro refines i m contract held resolved
    constructor
    · intro qty writes
      obtain ⟨rows, order, last⟩ := @writes_last r chrono _ _ _ _ _ writes
      obtain ⟨mgr, at_i, -, same, quantity⟩ := applySeeds_get held (rows.filterMap (seedAt r step))
      have found : Found r.hedge i m := ((writes_iff r chrono messages i m qty step).mp writes).1
      rw [if_pos found, last, Option.getD_some] at quantity
      rw [← reconciled_seeds] at at_i
      rw [← quantity]
      exact refines rows order mgr (List.mem_of_getElem? at_i) contract (same.trans resolved)
    · intro unwritten
      obtain ⟨mgr, at_i, -, same, quantity⟩ :=
        applySeeds_get held ((positioned chrono messages).positionList.filterMap (seedAt r step))
      have kept : mgr.hedgeQty = m.hedgeQty := by
        rw [quantity]
        split
        · rename_i found
          rcases last_writes found (.refl _) with ⟨qty, writes, -⟩ | ⟨-, last⟩
          · exact absurd writes (unwritten qty)
          · rw [last, Option.getD_none]
        · rfl
      rw [← reconciled_seeds] at at_i
      rw [← kept]
      exact refines _ (.refl _) mgr (List.mem_of_getElem? at_i) contract (same.trans resolved)
  · intro serves rows order mgr member contract resolved
    rw [reconciled_seeds] at member
    obtain ⟨i, at_i⟩ := List.mem_iff_getElem?.mp member
    have length := congrArg List.length (applySeeds_products r.hedge (rows.filterMap (seedAt r step)))
    rw [List.length_map, List.length_map] at length
    have bound : i < r.hedge.managers.length := length ▸ (List.getElem?_eq_some_iff.mp at_i).1
    obtain ⟨last, last_i, -, same, quantity⟩ :=
      applySeeds_get (List.getElem?_eq_getElem bound) (rows.filterMap (seedAt r step))
    rw [at_i] at last_i
    cases last_i
    obtain ⟨agree, untouched⟩ := serves i _ contract (List.getElem?_eq_getElem bound) (same.symm.trans resolved)
    rw [quantity]
    split
    · rename_i found
      rcases last_writes found order with ⟨qty, writes, last⟩ | ⟨unwritten, last⟩
      · rw [last, Option.getD_some]
        exact agree qty writes
      · rw [last, Option.getD_none]
        exact untouched unwritten
    · rename_i shadowed
      refine untouched fun qty writes => shadowed ?_
      exact ((writes_iff r chrono messages i _ qty step).mp writes).1

end Corsair.Daemon
