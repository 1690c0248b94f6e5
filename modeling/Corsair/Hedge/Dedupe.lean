import Mathlib.Algebra.BigOperators.Group.List.Basic
import Mathlib.Data.Finset.Lattice.Lemmas
import Corsair.Hedge.Manager
import Corsair.Lib.Firsts
import Corsair.Lib.Recent

namespace Corsair.Hedge

open BrokerApi Book

-- The identity a fill on the hedge contract is counted under.
def execKey (c : Contract) (fill : Fill) : Option String :=
  if fill.instrumentId = c.instrumentId ∧ fill.execId ≠ "" then some fill.execId else none

def FirstFill (c : Contract) (past : List Fill) (fill : Fill) : Prop :=
  (execKey c fill).isSome ∧ ¬Firsts.repeats (execKey c) past fill

instance (c : Contract) (past : List Fill) (fill : Fill) : Decidable (FirstFill c past fill) :=
  inferInstanceAs (Decidable (_ ∧ _))

def firstFills (c : Contract) (fills : List Fill) : List Fill :=
  (Firsts.firsts (execKey c) fills).filter fun fill => (execKey c fill).isSome

def signedFill (fill : Fill) : ℤ := if fill.side = .buy then fill.qty else -fill.qty

theorem execKey_some {c : Contract} {fill : Fill} {id : String} :
    execKey c fill = some id ↔ (fill.instrumentId = c.instrumentId ∧ fill.execId ≠ "") ∧ fill.execId = id := by
  unfold execKey
  split
  · rename_i counted
    simp [counted]
  · rename_i ignored
    simp [ignored]

theorem firstFill_iff {c : Contract} {past : List Fill} {fill : Fill} :
    FirstFill c past fill ↔
      (fill.instrumentId = c.instrumentId ∧ fill.execId ≠ "") ∧ some fill.execId ∉ past.map (execKey c) := by
  unfold FirstFill Firsts.repeats
  by_cases counted : fill.instrumentId = c.instrumentId ∧ fill.execId ≠ ""
  · have key := execKey_some.mpr ⟨counted, rfl⟩
    simp [key, counted]
  · have key : execKey c fill = none := if_neg counted
    simp [key, counted]

theorem firstFills_snoc (c : Contract) (past : List Fill) (fill : Fill) :
    firstFills c (past ++ [fill]) = firstFills c past ++ if FirstFill c past fill then [fill] else [] := by
  unfold firstFills FirstFill
  rw [Firsts.firsts_snoc, List.filter_append]
  apply congrArg
  by_cases again : Firsts.repeats (execKey c) past fill
  · simp [again]
  · by_cases counted : (execKey c fill).isSome
    · simp [again, counted]
    · simp [again, counted]

theorem signedQty_exact {fill : Fill} (small : fill.qty < 2^31) : HedgeManager.signedQty fill = signedFill fill := by
  have same : wrapI32 fill.qty = fill.qty := by
    unfold wrapI32
    omega
  unfold HedgeManager.signedQty HedgeState.effect signedFill
  simp only [same, decide_eq_true_eq]

namespace HedgeManager

def fillStep (m : HedgeManager) (fill : Fill) : HedgeManager × List String :=
  ((m.applyBrokerFill fill).1, if (m.applyBrokerFill fill).2 then [fill.execId] else [])

def afterFills (m : HedgeManager) (fills : List Fill) : HedgeManager := Machine.after fillStep m fills

def acceptedIds (m : HedgeManager) (fills : List Fill) : List String := Machine.emitted fillStep m fills

-- Fewer fills than the FIFO holds are accepted between the first acceptance of an
-- execution and each repeat of it.
def RepeatsWithin (c : Contract) (m : HedgeManager) (fills : List Fill) : Prop :=
  ∀ past first between again rest, fills = past ++ first :: (between ++ again :: rest) →
    (m.afterFills past).accepts first → first.execId ∉ m.acceptedIds past → execKey c again = some first.execId →
      (acceptedIds (m.afterFills (past ++ [first])) between).length < processedExecIdsMax

def Remembers (m : HedgeManager) (r : Recent String processedExecIdsMax) : Prop :=
  m.processedExecIds = r.items.toFinset ∧ m.processedExecIdsOrder = r.items

section Step

variable {m : HedgeManager} {r : Recent String processedExecIdsMax} {fill : Fill}

theorem Remembers.mem (remembers : m.Remembers r) {id : String} : id ∈ m.processedExecIds ↔ id ∈ r.items := by
  rw [remembers.1, List.mem_toFinset]

theorem evictOldest_full {old : String} {rest : List String} (order : m.processedExecIdsOrder = old :: rest)
    (full : processedExecIdsMax ≤ m.processedExecIdsOrder.length) :
    m.evictOldest.processedExecIds = m.processedExecIds.erase old ∧ m.evictOldest.processedExecIdsOrder = rest := by
  unfold evictOldest
  rw [if_pos full, order]
  exact ⟨rfl, rfl⟩

theorem evictOldest_room (room : ¬processedExecIdsMax ≤ m.processedExecIdsOrder.length) : m.evictOldest = m := by
  unfold evictOldest
  rw [if_neg room]

theorem record_remembers (remembers : m.Remembers r) {id : String} (fresh : id ∉ r.items) :
    (m.evictOldest.recordExecId id).Remembers (r.push id fresh) := by
  obtain ⟨members, order⟩ := remembers
  by_cases full : processedExecIdsMax ≤ r.items.length
  · cases items : r.items with
    | nil =>
      rw [items] at full
      cases full
    | cons old rest =>
      obtain ⟨kept, left⟩ := evictOldest_full (order.trans items) (order ▸ full)
      have pushed := Recent.push_full items full fresh
      have distinct := r.distinct
      rw [items, List.nodup_cons] at distinct
      refine ⟨?_, ?_⟩
      · simp only [recordExecId, kept, pushed, members, items, List.toFinset_cons, List.toFinset_append]
        rw [Finset.erase_insert (by simpa using distinct.1)]
        ext other
        simp
      · simp only [recordExecId, left, pushed]
  · have pushed := Recent.push_room (Nat.lt_of_not_le full) fresh
    rw [evictOldest_room (order ▸ full)]
    refine ⟨?_, ?_⟩
    · simp only [recordExecId, pushed, members, List.toFinset_append]
      ext other
      simp
    · simp only [recordExecId, pushed, order]

theorem fillStep_accepted (accepted : m.accepts fill) :
    fillStep m fill = ((m.applyBrokerFill fill).1, [fill.execId]) := by
  unfold fillStep
  rw [(applyBrokerFill_accepted accepted).1, if_pos rfl]

theorem fillStep_refused (refused : ¬m.accepts fill) : fillStep m fill = (m, []) := by
  unfold fillStep
  rw [applyBrokerFill_refused refused]
  rfl

theorem accepted_remembers (remembers : m.Remembers r) (accepted : m.accepts fill) (fresh : fill.execId ∉ r.items) :
    (m.applyBrokerFill fill).1.Remembers (r.push fill.execId fresh) := by
  have recorded := record_remembers remembers fresh
  unfold applyBrokerFill
  rw [if_pos accepted]
  exact recorded

end Step

section Run

-- What a run over one contract has made of its fills: the memory holds the newest of
-- the accepted identities, and every identity counted was accepted once.
structure Dedupes (c : Contract) (past : List Fill) (accepted : List String) (m : HedgeManager) : Prop where
  executes : m.cfg.mode = .execute
  resolved : m.hedgeContract = some c
  remembers : ∃ r : Recent String processedExecIdsMax, m.Remembers r ∧ r.Recalls accepted
  counted : ∀ id, id ∈ accepted ↔ some id ∈ past.map (execKey c)

variable {c : Contract} {past : List Fill} {accepted : List String} {m : HedgeManager} {fill : Fill}

theorem Dedupes.accepts_iff (dedupes : Dedupes c past accepted m) :
    m.accepts fill ↔ (fill.instrumentId = c.instrumentId ∧ fill.execId ≠ "") ∧ fill.execId ∉ m.processedExecIds := by
  unfold accepts hedges
  simp only [dedupes.executes, dedupes.resolved, Option.any_some, decide_eq_true_eq, true_and, and_assoc,
    eq_comm (a := c.instrumentId)]

theorem Dedupes.processed (dedupes : Dedupes c past accepted m) {id : String} (member : id ∈ m.processedExecIds) :
    id ∈ accepted := by
  obtain ⟨r, remembers, recalls⟩ := dedupes.remembers
  exact recalls.told (remembers.mem.mp member)

theorem Dedupes.first (dedupes : Dedupes c past accepted m) (first : FirstFill c past fill) : m.accepts fill := by
  obtain ⟨counted, new⟩ := firstFill_iff.mp first
  apply dedupes.accepts_iff.mpr
  refine ⟨counted, ?_⟩
  intro member
  exact new ((dedupes.counted _).mp (dedupes.processed member))

theorem Dedupes.step (dedupes : Dedupes c past accepted m) (fill : Fill) :
    Dedupes c (past ++ [fill]) (accepted ++ (fillStep m fill).2) (fillStep m fill).1 := by
  by_cases accepts : m.accepts fill
  · obtain ⟨cfg, contract, _⟩ := applyBrokerFill_kept m fill
    obtain ⟨r, remembers, recalls⟩ := dedupes.remembers
    obtain ⟨counted, new⟩ := dedupes.accepts_iff.mp accepts
    have fresh : fill.execId ∉ r.items := remembers.mem.not.mp new
    rw [fillStep_accepted accepts]
    refine ⟨by rw [cfg]; exact dedupes.executes, contract.trans dedupes.resolved, ?_, ?_⟩
    · exact ⟨r.push fill.execId fresh, accepted_remembers remembers accepts fresh, Recent.push_recalls recalls fresh⟩
    · intro id
      have key : execKey c fill = some fill.execId := execKey_some.mpr ⟨counted, rfl⟩
      rw [List.map_append, List.mem_append, List.mem_append, dedupes.counted]
      simp [key]
  · rw [fillStep_refused accepts, List.append_nil]
    refine ⟨dedupes.executes, dedupes.resolved, dedupes.remembers, ?_⟩
    intro id
    rw [List.map_append, List.mem_append, dedupes.counted]
    refine ⟨Or.inl, ?_⟩
    intro given
    cases given with
    | inl earlier => exact earlier
    | inr last =>
      -- A counted fill is refused for its identity alone, which was accepted before.
      obtain ⟨counted, rfl⟩ := execKey_some.mp (List.mem_singleton.mp last).symm
      have known : fill.execId ∈ m.processedExecIds := by
        by_contra new
        exact accepts (dedupes.accepts_iff.mpr ⟨counted, new⟩)
      exact (dedupes.counted _).mp (dedupes.processed known)

theorem fresh_dedupes (executes : m.cfg.mode = .execute) (resolved : m.hedgeContract = some c)
    (fresh : m.processedExecIds = ∅ ∧ m.processedExecIdsOrder = []) : Dedupes c [] [] m := by
  refine ⟨executes, resolved, ⟨Recent.empty, ⟨?_, fresh.2⟩, Recent.empty_recalls⟩, by simp⟩
  exact fresh.1

theorem run_dedupes (start : Dedupes c [] [] m) (fills : List Fill) :
    Dedupes c fills (m.acceptedIds fills) (m.afterFills fills) := by
  apply Machine.traces (Dedupes c)
  · intro past out s input held
    exact held.step input
  · exact start

theorem repeat_remembered (start : Dedupes c [] [] m) {rest : List Fill}
    (within : RepeatsWithin c m (past ++ fill :: rest)) (keyed : execKey c fill = some fill.execId)
    (again : fill.execId ∈ m.acceptedIds past) : fill.execId ∈ (m.afterFills past).processedExecIds := by
  obtain ⟨before, first, between, rfl, sent, new⟩ := Machine.first_emitted again
  have accepts : (m.afterFills before).accepts first := by
    by_contra refused
    rw [show Machine.after fillStep m before = m.afterFills before from rfl, fillStep_refused refused] at sent
    cases sent
  rw [show Machine.after fillStep m before = m.afterFills before from rfl, fillStep_accepted accepts,
    List.mem_singleton] at sent
  have few := within before first between fill rest (by simp) accepts (sent ▸ new) (sent ▸ keyed)
  obtain ⟨r, remembers, recalls⟩ := (run_dedupes start (before ++ first :: between)).remembers
  apply remembers.mem.mpr
  have order : m.acceptedIds (before ++ first :: between) = m.acceptedIds before ++
      first.execId :: acceptedIds (m.afterFills (before ++ [first])) between := by
    have one : (fillStep (m.afterFills before) first).2 = [first.execId] := by rw [fillStep_accepted accepts]
    unfold acceptedIds afterFills at *
    rw [Machine.emitted_append, Machine.emitted, one, Machine.after_append]
    rfl
  rw [order] at recalls
  rw [sent]
  exact recalls.recent few

theorem accepts_first_iff (start : Dedupes c [] [] m) {rest : List Fill}
    (within : RepeatsWithin c m (past ++ fill :: rest)) : (m.afterFills past).accepts fill ↔ FirstFill c past fill := by
  have ran := run_dedupes start past
  constructor
  · intro accepts
    obtain ⟨counted, new⟩ := ran.accepts_iff.mp accepts
    apply firstFill_iff.mpr
    refine ⟨counted, ?_⟩
    intro again
    have keyed := execKey_some.mpr ⟨counted, rfl⟩
    exact new (repeat_remembered start within keyed ((ran.counted _).mpr again))
  · exact ran.first

theorem within_earlier (within : RepeatsWithin c m (past ++ [fill])) : RepeatsWithin c m past := by
  intro before first between again rest split
  apply within before first between again (rest ++ [fill])
  rw [split]
  simp

theorem run_qty (start : Dedupes c [] [] m) {fills : List Fill} (small : ∀ fill ∈ fills, fill.qty < 2^31)
    (within : RepeatsWithin c m fills) :
    (m.afterFills fills).hedgeQty = m.hedgeQty + ((firstFills c fills).map signedFill).sum := by
  induction fills using List.reverseRecOn with
  | nil => exact (add_zero _).symm
  | append_singleton fills last next =>
    rw [List.forall_mem_append] at small
    have before := next small.1 (within_earlier within)
    have accepts := accepts_first_iff start within
    have stepped : m.afterFills (fills ++ [last]) = ((m.afterFills fills).applyBrokerFill last).1 :=
      Machine.after_append m fills [last]
    rw [stepped, firstFills_snoc]
    by_cases first : FirstFill c fills last
    · have taken := (applyBrokerFill_accepted (accepts.mpr first)).2
      rw [taken, before, signedQty_exact (small.2 last List.mem_cons_self), if_pos first, List.map_append,
        List.sum_append, List.map_singleton, List.sum_singleton, add_assoc]
    · rw [applyBrokerFill_refused (accepts.not.mpr first), if_neg first, List.append_nil]
      exact before

theorem few_within {fills : List Fill} (few : fills.length < processedExecIdsMax) : RepeatsWithin c m fills := by
  have answered : ∀ (fills : List Fill) (m : HedgeManager), (m.acceptedIds fills).length ≤ fills.length := by
    intro fills
    induction fills with
    | nil =>
      intro m
      exact Nat.le_refl 0
    | cons fill rest next =>
      intro m
      have later := next (fillStep m fill).1
      have one : (fillStep m fill).2.length ≤ 1 := by
        unfold fillStep
        dsimp only
        split <;> simp
      unfold acceptedIds at *
      rw [Machine.emitted, List.length_append, List.length_cons]
      omega
  intro past first between again rest split _ _ _
  have part := answered between (m.afterFills (past ++ [first]))
  have whole := congrArg List.length split
  simp only [List.length_append, List.length_cons] at whole
  omega

end Run

end HedgeManager

open HedgeManager in
theorem exec_dedupe (c : Contract) (m : HedgeManager) (fills : List Fill) (executes : m.cfg.mode = .execute)
    (resolved : m.hedgeContract = some c) (fresh : m.processedExecIds = ∅ ∧ m.processedExecIdsOrder = []) :
    ((m.afterFills fills).processedExecIds = (m.afterFills fills).processedExecIdsOrder.toFinset ∧
      (m.afterFills fills).processedExecIdsOrder.Nodup ∧ (m.afterFills fills).processedExecIdsOrder.length ≤ 10000) ∧
    ((∀ fill ∈ fills, fill.qty < 2^31) → RepeatsWithin c m fills →
      (m.afterFills fills).hedgeQty = m.hedgeQty + ((firstFills c fills).map signedFill).sum ∧
      ∀ past fill rest, fills = past ++ fill :: rest →
        (FirstFill c past fill → ((m.afterFills past).applyBrokerFill fill).2 = true) ∧
        (¬FirstFill c past fill → (m.afterFills past).applyBrokerFill fill = (m.afterFills past, false))) := by
  have start := fresh_dedupes executes resolved fresh
  refine ⟨?_, ?_⟩
  · obtain ⟨r, remembers, _⟩ := (run_dedupes start fills).remembers
    obtain ⟨members, order⟩ := remembers
    rw [members, order]
    exact ⟨rfl, r.distinct, r.bounded⟩
  · intro small within
    refine ⟨run_qty start small within, ?_⟩
    intro past fill rest split
    subst split
    have accepts := accepts_first_iff start within
    refine ⟨?_, ?_⟩
    · intro first
      exact (applyBrokerFill_accepted (accepts.mpr first)).1
    · intro again
      exact applyBrokerFill_refused (accepts.not.mpr again)

def july : Contract :=
  ⟨77, .future, "HG", "HGN6", ⟨2026, 7, 29, by decide⟩, none, none, .finite 25000, .comex, .usd⟩

def julyHedge : HedgeManager := (HedgeManager.new .hg).setHedgeContract july

def bought (execId : String) (instrument qty : ℕ) : Fill := ⟨execId, 8, instrument, .buy, qty, .finite 6, 0, none⟩

-- The second report of "h1" and the fill of another contract move nothing.
theorem july_dedupe : (julyHedge.afterFills
    [bought "h1" 77 2, bought "h2" 77 3, bought "h1" 77 2, bought "h3" 900 4]).hedgeQty = 5 := by
  have dedupe := exec_dedupe july julyHedge
    [bought "h1" 77 2, bought "h2" 77 3, bought "h1" 77 2, bought "h3" 900 4] rfl rfl ⟨rfl, rfl⟩
  obtain ⟨qty, _⟩ := dedupe.2 (by decide) (HedgeManager.few_within (by decide))
  rw [qty]
  decide +kernel

end Corsair.Hedge
