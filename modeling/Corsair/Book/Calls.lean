import Corsair.Book.Ledger

namespace Corsair.Book

open BrokerApi

inductive BookCall where
  | replacePositions (positions : List Position)
  | addFill (f : BookFill)
  deriving DecidableEq

def bookCall (s : PortfolioState) : BookCall → PortfolioState
  | .replacePositions positions => s.replacePositions positions
  | .addFill f => applyFill s f

def afterCalls (registry : ProductRegistry) (calls : List BookCall) : PortfolioState :=
  calls.foldl bookCall (.new registry)

def fillOutcome (s : PortfolioState) (f : BookFill) : FillOutcome :=
  (s.addFill f.product f.strike f.expiry f.right f.quantity f.price f.spread f.spreadMid).2

-- The book as it was last replaced, and the fills since.
def seedAndFills (seeded : List Position × List BookFill) : BookCall → List Position × List BookFill
  | .replacePositions positions => (positions, [])
  | .addFill f => (seeded.1, seeded.2 ++ [f])

def lastSeed (calls : List BookCall) : List Position × List BookFill := calls.foldl seedAndFills ([], [])

-- A seed may hold one key in several positions.
def quantityHeld (positions : List Position) (key : PositionKey) : ℤ :=
  Register.total Position.key Position.quantity positions key

-- One fill changes one position: `was` before it, `now` after it.
structure Touches (f : BookFill) (before after : List Position) (was now : Option Position) : Prop where
  around : ∃ early later, before = early ++ was.toList ++ later ∧ after = early ++ now.toList ++ later
  own : ∀ pos ∈ was.toList ++ now.toList, pos.key = f.key
  amount : (now.map Position.quantity).getD 0 = (was.map Position.quantity).getD 0 + f.quantity
  nonzero : ∀ pos ∈ now, pos.quantity ≠ 0

-- get_position finds a key exactly when it is there.
def Gets (s : PortfolioState) (key : PositionKey) : Prop :=
  match s.getPosition key with
  | some pos => pos ∈ s.positions ∧ pos.key = key
  | none => key ∉ s.positions.map Position.key

structure LedgerKept (registry : ProductRegistry) (calls : List BookCall) : Prop where
  total : ∀ key, quantityHeld (afterCalls registry calls).positions key =
    quantityHeld (lastSeed calls).1 key + held (lastSeed calls).2 key
  maps : Maps (afterCalls registry calls).index (afterCalls registry calls).positions
  gets : ∀ key, Gets (afterCalls registry calls) key
  touched : ∀ f, f.quantity ≠ 0 → ∃ was now,
    Touches f (afterCalls registry calls).positions (applyFill (afterCalls registry calls) f).positions was now
  rejected : ∀ f reason, fillOutcome (afterCalls registry calls) f = .rejected reason →
    applyFill (afterCalls registry calls) f = afterCalls registry calls

section Calls

variable {registry : ProductRegistry} {calls : List BookCall} {s : PortfolioState}

theorem fill_maps (maps : Maps s.index s.positions) (f : BookFill) :
    Maps (applyFill s f).index (applyFill s f).positions := by
  by_cases zero : f.quantity = 0
  · unfold applyFill
    rw [zero, addFill_zero]
    exact maps
  · exact (addFill_maps maps f.product f.strike f.expiry f.right zero f.price f.spread f.spreadMid).1

theorem call_maps (maps : Maps s.index s.positions) (call : BookCall) :
    Maps (bookCall s call).index (bookCall s call).positions := by
  cases call with
  | replacePositions positions => exact indexOf_maps positions
  | addFill f => exact fill_maps maps f

theorem calls_map (registry : ProductRegistry) (calls : List BookCall) :
    Maps (afterCalls registry calls).index (afterCalls registry calls).positions := by
  refine List.foldlRecOn (motive := fun s : PortfolioState => Maps s.index s.positions) calls bookCall
    (new_indexed registry).maps ?_
  intro s maps call _
  exact call_maps maps call

theorem fill_touches (maps : Maps s.index s.positions) {f : BookFill} (trades : f.quantity ≠ 0) :
    ∃ was now, Touches f s.positions (applyFill s f).positions was now := by
  obtain ⟨-, -, -, shape⟩ := addFill_maps maps f.product f.strike f.expiry f.right trades f.price f.spread f.spreadMid
  change Filled _ _ (applyFill s f).positions at shape
  generalize (applyFill s f).positions = after at *
  cases shape with
  | opened absent =>
    refine ⟨none, some (freshPosition s f.product f.strike f.expiry f.right f.quantity f.price),
      ⟨s.positions, [], by simp, by simp⟩, ?_, ?_, ?_⟩
    · intro pos member
      cases List.mem_singleton.mp member
      rfl
    · exact (zero_add f.quantity).symm
    · intro pos member
      cases member
      exact trades
  | @closed early later pos split same flat =>
    refine ⟨some pos, none, ⟨early, later, by simp [split], by simp⟩, ?_, ?_, ?_⟩
    · intro other member
      cases List.mem_singleton.mp member
      exact same
    · change pos.quantity + f.quantity = 0 at flat
      simp [flat]
    · intro other member
      cases member
  | @merged early later pos split same left =>
    refine ⟨some pos, some { pos with quantity := pos.quantity + f.quantity, avgFillPrice := f.price },
      ⟨early, later, by simp [split], ?_⟩, ?_, rfl, ?_⟩
    · simp [freshPosition]
    · intro other member
      rcases List.mem_cons.mp member with rfl | new
      · exact same
      · cases List.mem_singleton.mp new
        exact same
    · intro other member
      cases member
      exact left

theorem touches_total {f : BookFill} {before after : List Position} {was now : Option Position}
    (touches : Touches f before after was now) (key : PositionKey) :
    quantityHeld after key = quantityHeld before key + if f.key = key then f.quantity else 0 := by
  obtain ⟨⟨early, later, rfl, rfl⟩, own, amount, -⟩ := touches
  have mine : ∀ pos ∈ was, pos.key = f.key := by
    intro pos member
    exact own pos (List.mem_append_left _ (Option.mem_toList.mpr member))
  have yours : ∀ pos ∈ now, pos.key = f.key := by
    intro pos member
    exact own pos (List.mem_append_right _ (Option.mem_toList.mpr member))
  unfold quantityHeld
  simp only [Register.total_append, Register.total_option _ _ mine, Register.total_option _ _ yours]
  split
  · rw [amount]
    omega
  · omega

-- A call adds its fill to the quantity held, or starts over from its seed.
theorem call_total (maps : Maps s.index s.positions) {seeded : List Position × List BookFill}
    (kept : ∀ key, quantityHeld s.positions key = quantityHeld seeded.1 key + held seeded.2 key) (call : BookCall)
    (key : PositionKey) :
    quantityHeld (bookCall s call).positions key =
      quantityHeld (seedAndFills seeded call).1 key + held (seedAndFills seeded call).2 key := by
  cases call with
  | replacePositions positions => exact (add_zero _).symm
  | addFill f =>
    change quantityHeld (applyFill s f).positions key = quantityHeld seeded.1 key + held (seeded.2 ++ [f]) key
    rw [held_snoc, ← add_assoc, ← kept]
    by_cases zero : f.quantity = 0
    · unfold applyFill
      rw [zero, addFill_zero, ite_self, add_zero]
    · obtain ⟨was, now, touches⟩ := fill_touches maps zero
      exact touches_total touches key

theorem calls_total (registry : ProductRegistry) (calls : List BookCall) (key : PositionKey) :
    quantityHeld (afterCalls registry calls).positions key =
      quantityHeld (lastSeed calls).1 key + held (lastSeed calls).2 key := by
  induction calls using List.reverseRecOn generalizing key with
  | nil => rfl
  | append_singleton calls call kept =>
    have snoc : afterCalls registry (calls ++ [call]) = bookCall (afterCalls registry calls) call := by
      simp [afterCalls]
    have seeded : lastSeed (calls ++ [call]) = seedAndFills (lastSeed calls) call := by
      simp [lastSeed]
    rw [snoc, seeded]
    exact call_total (calls_map registry calls) kept call key

theorem getPosition_finds (maps : Maps s.index s.positions) (key : PositionKey) : Gets s key := by
  unfold Gets PortfolioState.getPosition
  cases found : s.index.get key with
  | none => exact maps_absent maps found
  | some i =>
    obtain ⟨pos, at_i, own⟩ := key_at.mp (maps.sound key i found)
    rw [Option.bind_some, at_i]
    exact ⟨List.mem_of_getElem? at_i, own⟩

theorem outcome_rejected {f : BookFill} {reason : String} (rejected : fillOutcome s f = .rejected reason) :
    f.quantity = 0 := by
  by_contra trades
  unfold fillOutcome PortfolioState.addFill at rejected
  rw [if_neg trades] at rejected
  dsimp only at rejected
  split at rejected
  · split at rejected
    · unfold PortfolioState.mergeFill PortfolioState.mergeOutcome at rejected
      dsimp only at rejected
      split at rejected
      · cases rejected
      · split at rejected
        · cases rejected
        · split at rejected <;> cases rejected
    · cases rejected
  · cases rejected

end Calls

theorem ledger_kept (registry : ProductRegistry) (calls : List BookCall) : LedgerKept registry calls := by
  have maps := calls_map registry calls
  refine ⟨calls_total registry calls, maps, getPosition_finds maps, fun f trades => fill_touches maps trades, ?_⟩
  intro f reason rejected
  unfold applyFill
  rw [outcome_rejected rejected, addFill_zero]

end Corsair.Book
