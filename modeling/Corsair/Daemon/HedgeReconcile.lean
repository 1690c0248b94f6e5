import Corsair.Daemon.FillOnce
import Corsair.Lib.Counter

namespace Corsair.Daemon

open BrokerApi Hedge

-- A delivery to the hedge side: an execution report, or what positions() answers.
inductive HedgeMessage where
  | execution (fill : Fill)
  | snapshot (rows : List BrokerApi.Position)

-- The hedge half of handle_fill, and the reconcile step of the periodic hedge.
def deliverHedge (h : HedgeFanout) : HedgeMessage → HedgeFanout
  | .execution fill => (offerFill h fill (managedProducts h)).1
  | .snapshot rows => reconcileHedges h (.ok rows)

section Gateway

variable (start : ℤ) (contract : Contract) (trades : List Fill)

def netAfter (count : ℕ) : ℤ := start + ((trades.take count).map HedgeManager.signedQty).sum

-- A flat position has no row: the adapter removes it from its cache.
def snapshotRows (net : ℤ) (avgCost : F64) : List BrokerApi.Position :=
  if net = 0 then [] else [⟨contract, net, avgCost, .finite 0, .finite 0⟩]

end Gateway

-- What the gateway sends, as it is delivered: an execution, or the positions it
-- reported after so many of its trades.
inductive GatewayMessage where
  | execution (fill : Fill)
  | snapshot (count : ℕ) (avgCost : F64)

def GatewayMessage.fill? : GatewayMessage → Option Fill
  | .execution fill => some fill
  | .snapshot _ _ => none

def GatewayMessage.count? : GatewayMessage → Option ℕ
  | .execution _ => none
  | .snapshot count _ => some count

def GatewayMessage.toHedge (start : ℤ) (contract : Contract) (trades : List Fill) : GatewayMessage → HedgeMessage
  | .execution fill => .execution fill
  | .snapshot count avgCost => .snapshot (snapshotRows contract (netAfter start trades count) avgCost)

-- All of both streams is delivered, each in its order: one execution for every
-- trade, and snapshots of which the last includes them all.
structure Interleaved (trades : List Fill) (messages : List GatewayMessage) : Prop where
  executions : messages.filterMap (·.fill?) = trades
  ordered : (messages.filterMap (·.count?)).Pairwise (· ≤ ·)
  last : trades ≠ [] → (messages.filterMap (·.count?)).getLast? = some trades.length

-- The trades are in the resolved hedge contract of a manager in Execute mode, and
-- their ids are new to it and to each other.
structure Hedged (m : HedgeManager) (contract : Contract) (trades : List Fill) : Prop where
  execute : m.cfg.mode = .execute
  resolved : m.hedgeContract = some contract
  future : contract.kind = .future
  symbol : contract.symbol = m.cfg.product
  instrument : ∀ fill ∈ trades, fill.instrumentId = contract.instrumentId
  named : ∀ fill ∈ trades, fill.execId ≠ ""
  unseen : ∀ fill ∈ trades, fill.execId ∉ m.processedExecIds
  distinct : (trades.map (·.execId)).Nodup

def hedgeAfter (m : HedgeManager) (contract : Contract) (trades : List Fill) (messages : List GatewayMessage) : ℤ :=
  ((messages.map (·.toHedge m.hedgeQty contract trades)).foldl deliverHedge ⟨[m]⟩).hedgeQtyForProduct m.cfg.product

def HedgeAgrees (m : HedgeManager) (contract : Contract) (trades : List Fill) (messages : List GatewayMessage) : Prop :=
  hedgeAfter m contract trades messages = netAfter m.hedgeQty trades trades.length

def GatewayMessage.write (start : ℤ) (trades : List Fill) : GatewayMessage → Counter.Write ℤ
  | .execution fill => .add (HedgeManager.signedQty fill)
  | .snapshot count _ => if netAfter start trades count = 0 then .add 0 else .set (netAfter start trades count)

section Manager

variable {m : HedgeManager}

theorem deliver_execution (m : HedgeManager) (fill : Fill) :
    deliverHedge ⟨[m]⟩ (.execution fill) = ⟨[(m.applyBrokerFill fill).1]⟩ := by
  simp only [deliverHedge, managedProducts, List.map_cons, List.map_nil, offerFill, HedgeFanout.forProduct,
    decide_true, List.find?_cons_of_pos]
  by_cases accepted : m.accepts fill
  · simp [(HedgeManager.applyBrokerFill_accepted accepted).1, HedgeFanout.forProductMut, HedgeFanout.update]
  · simp [HedgeManager.applyBrokerFill_refused accepted]

theorem deliver_flat (m : HedgeManager) (contract : Contract) (avgCost : F64) :
    deliverHedge ⟨[m]⟩ (.snapshot (snapshotRows contract 0 avgCost)) = ⟨[m]⟩ := rfl

theorem deliver_snapshot {contract : Contract} (future : contract.kind = .future)
    (symbol : contract.symbol = m.cfg.product) {net : ℤ} (open_position : net ≠ 0) (avgCost : F64) :
    ∃ avg, deliverHedge ⟨[m]⟩ (.snapshot (snapshotRows contract net avgCost)) =
      ⟨[(m.reconcileWithPosition net avg).1]⟩ := by
  refine ⟨avgCost.exact / if contract.multiplier.positive then contract.multiplier.exact else 25000, ?_⟩
  simp only [deliverHedge, snapshotRows, open_position, if_false, reconcileHedges, List.foldl_cons, List.foldl_nil,
    reconcilePosition, future, ne_eq, not_true_eq_false, HedgeFanout.forProductMut, HedgeFanout.update, symbol, if_true]

theorem Hedged.accepts {contract : Contract} {fill : Fill} {rest : List Fill}
    (hedged : Hedged m contract (fill :: rest)) : m.accepts fill := by
  have instrument := hedged.instrument fill List.mem_cons_self
  have named := hedged.named fill List.mem_cons_self
  have unseen := hedged.unseen fill List.mem_cons_self
  simp [HedgeManager.accepts, HedgeManager.hedges, hedged.execute, hedged.resolved, instrument, named, unseen]

theorem Hedged.filled {contract : Contract} {fill : Fill} {rest : List Fill}
    (hedged : Hedged m contract (fill :: rest)) : Hedged (m.applyBrokerFill fill).1 contract rest := by
  obtain ⟨cfg, resolved, ids⟩ := m.applyBrokerFill_kept fill
  have distinct := hedged.distinct
  rw [List.map_cons, List.nodup_cons] at distinct
  refine ⟨cfg ▸ hedged.execute, resolved ▸ hedged.resolved, hedged.future, cfg ▸ hedged.symbol, ?_, ?_, ?_,
    distinct.2⟩
  · intro other member
    exact hedged.instrument other (List.mem_cons_of_mem _ member)
  · intro other member
    exact hedged.named other (List.mem_cons_of_mem _ member)
  · intro other member seen
    rcases Finset.mem_insert.mp (ids seen) with own | before
    · exact distinct.1 (own ▸ List.mem_map_of_mem member)
    · exact hedged.unseen other (List.mem_cons_of_mem _ member) before

theorem Hedged.reconciled {contract : Contract} {trades : List Fill} (hedged : Hedged m contract trades) (net : ℤ)
    (avg : ℚ) : Hedged (m.reconcileWithPosition net avg).1 contract trades := by
  obtain ⟨cfg, resolved, ids⟩ := m.reconcile_kept net avg
  exact ⟨cfg ▸ hedged.execute, resolved ▸ hedged.resolved, hedged.future, cfg ▸ hedged.symbol, hedged.instrument,
    hedged.named, ids ▸ hedged.unseen, hedged.distinct⟩

theorem delivered_writes (start : ℤ) {contract : Contract} (trades : List Fill) {messages : List GatewayMessage}
    (hedged : Hedged m contract (messages.filterMap (·.fill?))) :
    ∃ last : HedgeManager, last.cfg = m.cfg ∧
      (messages.map (·.toHedge start contract trades)).foldl deliverHedge ⟨[m]⟩ = ⟨[last]⟩ ∧
      last.hedgeQty = Counter.run m.hedgeQty (messages.map (·.write start trades)) := by
  induction messages generalizing m with
  | nil => exact ⟨m, rfl, rfl, rfl⟩
  | cons message rest next =>
    cases message with
    | execution fill =>
      have accepted := HedgeManager.applyBrokerFill_accepted hedged.accepts
      obtain ⟨last, cfg, delivered, qty⟩ := next hedged.filled
      refine ⟨last, cfg.trans (m.applyBrokerFill_kept fill).1, ?_, ?_⟩
      · rw [List.map_cons, List.foldl_cons, GatewayMessage.toHedge, deliver_execution]
        exact delivered
      · rw [qty, accepted.2]
        rfl
    | snapshot count avgCost =>
      rw [List.map_cons, List.foldl_cons, GatewayMessage.toHedge, List.map_cons]
      by_cases flat : netAfter start trades count = 0
      · obtain ⟨last, cfg, delivered, qty⟩ := next hedged
        refine ⟨last, cfg, ?_, ?_⟩
        · rw [flat, deliver_flat]
          exact delivered
        · rw [qty, GatewayMessage.write, if_pos flat]
          simp [Counter.run, Counter.apply]
      · obtain ⟨avg, written⟩ := deliver_snapshot hedged.future hedged.symbol flat avgCost
        obtain ⟨last, cfg, delivered, qty⟩ := next (hedged.reconciled (netAfter start trades count) avg)
        refine ⟨last, cfg.trans (m.reconcile_kept _ _).1, ?_, ?_⟩
        · rw [written]
          exact delivered
        · rw [qty, GatewayMessage.write, if_neg flat, HedgeManager.reconcile_qty]
          rfl

end Manager

section Net

variable {start : ℤ} {trades : List Fill}

theorem added_executions (messages : List GatewayMessage) :
    Counter.added (messages.map (·.write start trades)) =
      ((messages.filterMap (·.fill?)).map HedgeManager.signedQty).sum := by
  unfold Counter.added
  induction messages with
  | nil => rfl
  | cons message rest next =>
    rw [List.map_cons, List.map_cons, List.sum_cons, next]
    cases message with
    | execution fill =>
      have first : (GatewayMessage.execution fill :: rest).filterMap (·.fill?) = fill :: rest.filterMap (·.fill?) := rfl
      rw [first, List.map_cons, List.sum_cons]
      rfl
    | snapshot count avgCost =>
      have nothing : Counter.amount (GatewayMessage.write start trades (.snapshot count avgCost)) = 0 := by
        simp only [GatewayMessage.write]
        split <;> rfl
      rw [nothing, zero_add, List.filterMap_cons_none rfl]

-- Executions come in the order of the trades, so those delivered so far are the first trades.
theorem netAfter_delivered {messages before later : List GatewayMessage}
    (executions : messages.filterMap (·.fill?) = trades) (split : messages = before ++ later) :
    netAfter start trades (before.filterMap (·.fill?)).length =
      start + Counter.added (before.map (·.write start trades)) := by
  rw [added_executions, netAfter, ← executions, split, List.filterMap_append, List.take_left]

end Net

-- The last delivered snapshot that has a row reports what the executions delivered
-- before it add up to: it has overtaken none of them, and none of them it, unless
-- those cancel out.
def SnapshotInStep (start : ℤ) (trades : List Fill) (messages : List GatewayMessage) : Prop :=
  ∀ before count avgCost later, messages = before ++ .snapshot count avgCost :: later →
    netAfter start trades count ≠ 0 →
    (∀ n avg, .snapshot n avg ∈ later → netAfter start trades n = 0) →
    netAfter start trades count = netAfter start trades (before.filterMap (·.fill?)).length

theorem write_isSet (start : ℤ) (trades : List Fill) (message : GatewayMessage) :
    Counter.isSet (message.write start trades) ↔
      ∃ count avgCost, message = .snapshot count avgCost ∧ netAfter start trades count ≠ 0 := by
  cases message with
  | execution fill => simp [GatewayMessage.write, Counter.isSet]
  | snapshot count avgCost =>
    unfold GatewayMessage.write
    by_cases flat : netAfter start trades count = 0
    · simp [flat, Counter.isSet]
    · simp [flat, Counter.isSet]

theorem hedgeAfter_run {m : HedgeManager} {contract : Contract} {trades : List Fill} {messages : List GatewayMessage}
    (hedged : Hedged m contract trades) (executions : messages.filterMap (·.fill?) = trades) :
    hedgeAfter m contract trades messages = Counter.run m.hedgeQty (messages.map (·.write m.hedgeQty trades)) := by
  obtain ⟨last, cfg, delivered, qty⟩ := delivered_writes m.hedgeQty trades (executions ▸ hedged)
  rw [← qty, hedgeAfter, delivered]
  simp [HedgeFanout.hedgeQtyForProduct, HedgeFanout.forProduct, cfg]

section Writes

variable {start : ℤ} {trades : List Fill} {messages : List GatewayMessage}

theorem netAfter_all (executions : messages.filterMap (·.fill?) = trades) :
    netAfter start trades trades.length = start + Counter.added (messages.map (·.write start trades)) := by
  have all : netAfter start trades (messages.filterMap (·.fill?)).length = _ :=
    netAfter_delivered executions (List.append_nil messages).symm
  rwa [executions] at all

-- The condition on the snapshots, read off the writes.
theorem inStep_iff (executions : messages.filterMap (·.fill?) = trades) :
    SnapshotInStep start trades messages ↔
      ∀ before value later, messages.map (·.write start trades) = before ++ .set value :: later →
        (∀ w ∈ later, ¬Counter.isSet w) → value = start + Counter.added before := by
  constructor
  · intro inStep before value later split adds
    obtain ⟨early, rest, messages_split, rfl, mapped⟩ := List.map_eq_append_iff.mp split
    obtain ⟨message, late, rest_split, wrote, rfl⟩ := List.map_eq_cons_iff.mp mapped
    have set : Counter.isSet (message.write start trades) := by
      rw [wrote]
      rfl
    obtain ⟨count, avgCost, rfl, open_position⟩ := (write_isSet _ _ _).mp set
    rw [rest_split] at messages_split
    have flat : ∀ n avg, .snapshot n avg ∈ late → netAfter start trades n = 0 := by
      intro n avg member
      by_contra open_later
      exact adds _ (List.mem_map_of_mem member) ((write_isSet _ _ _).mpr ⟨n, avg, rfl, open_later⟩)
    have same := inStep early count avgCost late messages_split open_position flat
    rw [netAfter_delivered executions messages_split] at same
    rw [← same]
    simpa [GatewayMessage.write, open_position] using wrote.symm
  · intro written before count avgCost later split open_position flat
    have wrote : messages.map (·.write start trades) = before.map (·.write start trades) ++
        .set (netAfter start trades count) :: later.map (·.write start trades) := by
      simp [split, GatewayMessage.write, open_position]
    have adds : ∀ w ∈ later.map (·.write start trades), ¬Counter.isSet w := by
      intro w member set
      obtain ⟨message, held, rfl⟩ := List.mem_map.mp member
      obtain ⟨n, avg, rfl, open_later⟩ := (write_isSet _ _ _).mp set
      exact open_later (flat n avg held)
    rw [written _ _ _ wrote adds, netAfter_delivered executions split]

end Writes

section Overtaken

def hgFuture : Contract where
  instrumentId := 77
  kind := .future
  symbol := "HG"
  localSymbol := "HGM6"
  expiry := june26
  strike := none
  right := none
  multiplier := .finite 25000
  exchange := .comex
  currency := .usd

def hgManager : HedgeManager := (HedgeManager.new .hg).setHedgeContract hgFuture

def boughtOne : Fill := ⟨"h1", 8, 77, .buy, 1, .finite 6, 0, none⟩

-- The snapshot that includes the trade is reconciled first, then its execution is applied.
def overtaken : List GatewayMessage := [.snapshot 1 (.finite 150000), .execution boughtOne]

theorem hgManager_hedged : Hedged hgManager hgFuture [boughtOne] where
  execute := rfl
  resolved := rfl
  future := rfl
  symbol := rfl
  instrument := by simp [boughtOne, hgFuture]
  named := by simp [boughtOne]
  unseen := by simp [hgManager, HedgeManager.new, HedgeManager.setHedgeContract]
  distinct := by simp

end Overtaken

theorem snapshot_overtakes :
    Hedged hgManager hgFuture [boughtOne] ∧ Interleaved [boughtOne] overtaken ∧
      ¬HedgeAgrees hgManager hgFuture [boughtOne] overtaken := by
  refine ⟨hgManager_hedged, ⟨rfl, by decide, fun _ => rfl⟩, ?_⟩
  unfold HedgeAgrees
  decide +kernel

theorem hedge_agrees_iff {m : HedgeManager} {contract : Contract} {trades : List Fill}
    {messages : List GatewayMessage} (hedged : Hedged m contract trades) (interleaved : Interleaved trades messages) :
    HedgeAgrees m contract trades messages ↔ SnapshotInStep m.hedgeQty trades messages := by
  have executions := interleaved.executions
  unfold HedgeAgrees
  rw [hedgeAfter_run hedged executions, netAfter_all executions, Counter.run_counts, inStep_iff executions]

theorem hedge_agrees_in_order :
    HedgeAgrees hgManager hgFuture [boughtOne] [.execution boughtOne, .snapshot 1 (.finite 150000)] ↔
      SnapshotInStep hgManager.hedgeQty [boughtOne] [.execution boughtOne, .snapshot 1 (.finite 150000)] :=
  hedge_agrees_iff hgManager_hedged ⟨rfl, by decide, fun _ => rfl⟩

end Corsair.Daemon
