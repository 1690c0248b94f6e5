import Corsair.Native.Session

namespace Corsair.Native

open BrokerApi Framing

section Cache

variable (chrono : Chrono) (formats : Formats) (account : String)

def sessionAfter (events : List SessionEvent) : Session :=
  Machine.after (sessionStep chrono formats account) .new events

def sessionOuts (events : List SessionEvent) : List SessionOut :=
  Machine.emitted (sessionStep chrono formats account) .new events

-- What the uncached encoder makes of a request that went out.
def Uncached : SessionOut → Prop
  | .ordered orderId req frame true => ∃ params, buildPlaceParams formats req account = .ok params ∧
      frame = placeOrder formats orderId (placeOrderContractRequest formats req.contract) params
  | _ => True

def Transparent (events : List SessionEvent) : Prop :=
  ∀ out ∈ sessionOuts chrono formats account events, Uncached formats account out

def orderedContract : SessionOut → Option Contract
  | .ordered _ req _ _ => some req.contract
  | .routed _ => none

-- Every order that goes out has the contract fields of the first order encoded under
-- its instrument id.
def SameContract (events : List SessionEvent) : Prop :=
  ∀ past req rest, events = past ++ .placeOrder req true :: rest →
    (∃ params, Encodes formats account (sessionAfter chrono formats account past) req params) →
    ∀ first ∈ Memo.first Contract.instrumentId ((sessionOuts chrono formats account past).filterMap orderedContract)
        req.contract.instrumentId,
      contractSection formats first = contractSection formats req.contract

end Cache

section Cache

variable {chrono : Chrono} {formats : Formats} {account : String}

def Cached (formats : Formats) (outs : List SessionOut) (s : Session) : Prop :=
  Memo.Holds Contract.instrumentId (contractSection formats) (outs.filterMap orderedContract) s.placeTemplates

theorem quiet_cached {outs new : List SessionOut} {s next : Session} (cached : Cached formats outs s)
    (unordered : new.filterMap orderedContract = []) (same : next.placeTemplates = s.placeTemplates) :
    Cached formats (outs ++ new) next := by
  unfold Cached
  rw [same, List.filterMap_append, unordered, List.append_nil]
  exact cached

theorem placed_cached {outs : List SessionOut} {s : Session} (cached : Cached formats outs s) (req : PlaceOrderReq)
    (sends : Bool) : Cached formats (outs ++ (s.placeOrder formats account req sends).2)
      (s.placeOrder formats account req sends).1 := by
  rcases @placeOrder_cases formats account s req sends with ordered | refused
  · obtain ⟨params, _, out, templates⟩ := ordered
    unfold Cached
    rw [out, templates, List.filterMap_append]
    exact Memo.holds_insert cached req.contract
  · obtain ⟨_, out, templates⟩ := refused
    refine quiet_cached cached ?_ templates
    rw [out]
    rfl

theorem step_cached {outs : List SessionOut} {s : Session} (cached : Cached formats outs s) (event : SessionEvent) :
    Cached formats (outs ++ (sessionStep chrono formats account s event).2)
      (sessionStep chrono formats account s event).1 := by
  by_cases placing : ∃ req sends, event = .placeOrder req sends
  · obtain ⟨req, sends, rfl⟩ := placing
    exact placed_cached cached req sends
  · have other : ∀ req sends, event ≠ .placeOrder req sends := by
      intro req sends same
      exact placing ⟨req, sends, same⟩
    obtain ⟨templates, unordered⟩ := @sessionStep_templates chrono formats account s event other
    refine quiet_cached cached ?_ templates
    refine List.filterMap_eq_nil_iff.mpr fun out member => ?_
    cases out with
    | routed emission => rfl
    | ordered orderId req frame sent => exact absurd member (unordered orderId req frame sent)

theorem run_cached (events : List SessionEvent) :
    Cached formats (sessionOuts chrono formats account events) (sessionAfter chrono formats account events) := by
  have start : Cached formats [] Session.new := Memo.holds_empty
  refine Machine.traces (fun _ outs s => Cached formats outs s) ?_ start events
  intro past outs s event cached
  exact step_cached cached event

theorem uncached_own {req : PlaceOrderReq} {params : PlaceOrderParams}
    (built : buildPlaceParams formats req account = .ok params) (orderId : ℤ) (template : Bytes) :
    Uncached formats account (.ordered orderId req (placeOrderFast formats orderId template params) true) ↔
      template = contractSection formats req.contract := by
  constructor
  · intro given
    obtain ⟨other, same, frame⟩ := given
    rw [built] at same
    cases same
    exact (fast_frame _ _ _ _).mp frame
  · intro own
    exact ⟨params, built, (fast_frame _ _ _ _).mpr own⟩

-- What one order puts on the wire against what it should.
theorem order_uncached {outs : List SessionOut} {s : Session} (cached : Cached formats outs s) {req : PlaceOrderReq}
    {params : PlaceOrderParams} (built : buildPlaceParams formats req account = .ok params) (orderId : ℤ) :
    Uncached formats account (.ordered orderId req
        (placeOrderFast formats orderId (s.template formats req.contract) params) true) ↔
      ∀ first ∈ Memo.first Contract.instrumentId (outs.filterMap orderedContract) req.contract.instrumentId,
        contractSection formats first = contractSection formats req.contract := by
  rw [uncached_own built]
  exact Memo.lookup_own_iff cached req.contract

end Cache

theorem template_transparent_iff (chrono : Chrono) (formats : Formats) (account : String) (events : List SessionEvent) :
    Transparent chrono formats account events ↔ SameContract chrono formats account events := by
  constructor
  · intro transparent past req rest split encodes
    obtain ⟨params, encodes⟩ := encodes
    have cached := @run_cached chrono formats account past
    refine (order_uncached cached encodes.built (sessionAfter chrono formats account past).client.nextOrderId).mp
      (transparent _ ?_)
    rcases @placeOrder_cases formats account
      (sessionAfter chrono formats account past) req true with ordered | refused
    · obtain ⟨others, encoded, out, _⟩ := ordered
      have same := encoded.built
      rw [encodes.built] at same
      cases same
      refine Machine.mem_emitted.mpr ⟨past, .placeOrder req true, rest, split, ?_⟩
      change _ ∈ ((sessionAfter chrono formats account past).placeOrder formats account req true).2
      rw [out]
      exact List.mem_singleton.mpr rfl
    · exact absurd encodes (refused.1 params)
  · intro same out member
    obtain ⟨past, event, rest, split, emitted⟩ := Machine.mem_emitted.mp member
    cases out with
    | routed emission => trivial
    | ordered orderId req frame sent =>
      by_cases placing : ∃ req sends, event = .placeOrder req sends
      · obtain ⟨placed, goes, rfl⟩ := placing
        rcases @placeOrder_cases formats account
          (sessionAfter chrono formats account past) placed goes with ordered | refused
        · obtain ⟨params, encodes, out, _⟩ := ordered
          change _ ∈ ((sessionAfter chrono formats account past).placeOrder formats account placed goes).2 at emitted
          rw [out] at emitted
          cases List.mem_singleton.mp emitted
          cases sent with
          | false => trivial
          | true => exact (order_uncached (run_cached past) encodes.built _).mpr (same past req rest split ⟨params, encodes⟩)
        · change _ ∈ ((sessionAfter chrono formats account past).placeOrder formats account placed goes).2 at emitted
          rw [refused.2.1] at emitted
          cases emitted
      · have other : ∀ req sends, event ≠ .placeOrder req sends := by
          intro req sends equal
          exact placing ⟨req, sends, equal⟩
        exact absurd emitted ((sessionStep_templates _ event other).2 orderId req frame sent)

-- The same option ordered in June and again in July: handle_place names its symbol by
-- the month of the order.
section Months

def plainText : Formats where
  ryu _ := "6.05"
  date _ _ := "20260826"
  time _ _ := "20260826 17:00:00 UTC"

def monthly (symbol : String) : PlaceOrderReq where
  contract := {
    instrumentId := 712565973
    kind := .option
    symbol
    localSymbol := "HG2026-08-26C6.050"
    expiry := ⟨2026, 8, 26, by decide⟩
    strike := some (.finite (121 / 20))
    right := some .call
    multiplier := .finite 25000
    exchange := .comex
    currency := .usd }
  side := .sell
  qty := 1
  orderType := .limit
  price := some (.finite (57 / 2000))
  tif := .gtc
  gtdUntilUtc := none
  clientOrderRef := "corsair_trader"
  account := none

def monthTurned : List SessionEvent :=
  [.received ["9", "1", "7"], .placeOrder (monthly "HXE2606") true, .placeOrder (monthly "HXE2607") true]

end Months

theorem template_stale : ¬Transparent ⟨fun _ _ => none⟩ plainText "DUP553657" monthTurned := by
  rw [template_transparent_iff]
  intro same
  have july := same [.received ["9", "1", "7"], .placeOrder (monthly "HXE2606") true] (monthly "HXE2607") [] rfl
    ⟨_, by decide, by decide +kernel, rfl⟩ (monthly "HXE2606").contract (by decide +kernel)
  revert july
  decide +kernel

end Corsair.Native
