import Corsair.Book.ProductDelta
import Corsair.Constraint.Checker
import Corsair.Lib.Machine

namespace Corsair.Constraint

open BrokerApi Book

-- A fill put to the checker, and a greek refresh.
inductive GatedEvent where
  | fill (product : String) (c : ConstraintCheck ℚ) (price spread spreadMid : ℚ)
  | refresh (pricing : Pricing) (market : MarketView)

def applyChecked (s : PortfolioState) (product : String) (c : ConstraintCheck ℚ) (price spread spreadMid : ℚ) :
    PortfolioState :=
  (s.addFill product c.optionStrike c.optionExpiry c.optionRight c.fillQtySigned price spread spreadMid).1

def gatedStep (fmt : NumberFormat ℚ) (cfg : ConstraintConfig ℚ) (s : PortfolioState) :
    GatedEvent → PortfolioState × List GateOutcome
  | .fill product c price spread spreadMid =>
    let outcome := check fmt cfg c (holdings s)
    (if outcome.isAccepted then applyChecked s product c price spread spreadMid else s, [outcome])
  | .refresh pricing market => (s.refreshGreeks pricing market, [])

def checkedKey (product : String) (c : ConstraintCheck ℚ) : PositionKey :=
  makeKey product c.optionStrike c.optionExpiry c.optionRight

section Run

variable (delta : PositionKey → ℚ) (hedge : ℤ) (product : String)

-- Every contract has one delta throughout, which the caller passes to the checker
-- with the hedge, and which a refresh that computes one writes.
def Lawful (s : PortfolioState) : GatedEvent → Prop
  | .fill product c _ _ _ => c.optionDeltaPerContract = delta (checkedKey product c) ∧ c.hedgeQty = hedge
  | .refresh pricing market => ∀ p ∈ s.positions,
      (PortfolioState.refreshPosition pricing s.registry market p).delta = p.delta ∨
        (PortfolioState.refreshPosition pricing s.registry market p).delta = delta p.key

-- The book's delta by contract, with the hedge.
def trueDelta (s : PortfolioState) : ℚ := weighed product (fun p => delta p.key) s.positions + hedge

-- No position of the product stores another delta than its contract's.
def Current (s : PortfolioState) : Prop := ∀ p ∈ s.positions, p.product = product → p.delta = delta p.key

def CurrentAt (s : PortfolioState) : GatedEvent → Prop
  | .fill .. => Current delta product s
  | .refresh .. => True

end Run

-- Within the ceiling or no further out than at the start; and within the kill
-- from the first change of the delta on.
structure InsideLimits (cfg : ConstraintConfig ℚ) (initial now : ℚ) : Prop where
  ceiling : |now| ≤ max cfg.deltaCeiling |initial|
  kill : now = initial ∨ |now| ≤ cfg.deltaKill

section Limits

variable {fmt : NumberFormat ℚ} {cfg : ConstraintConfig ℚ} {delta : PositionKey → ℚ} {hedge : ℤ}

theorem refresh_trueDelta (product : String) (s : PortfolioState) (pricing : Pricing) (market : MarketView) :
    trueDelta delta hedge product (s.refreshGreeks pricing market) = trueDelta delta hedge product s := by
  unfold trueDelta
  rw [refreshed_weighed]

theorem applyChecked_indexed {s : PortfolioState} (indexed : Indexed s) (product : String) (c : ConstraintCheck ℚ)
    (price spread spreadMid : ℚ) : Indexed (applyChecked s product c price spread spreadMid) := by
  by_cases zero : c.fillQtySigned = 0
  · rw [applyChecked, zero, addFill_zero]
    exact indexed
  · exact (addFill_cases indexed product c.optionStrike c.optionExpiry c.optionRight zero price spread spreadMid).1

theorem applyChecked_trueDelta {s : PortfolioState} (indexed : Indexed s) (own product : String) (c : ConstraintCheck ℚ)
    (price spread spreadMid : ℚ) :
    trueDelta delta hedge own (applyChecked s product c price spread spreadMid) =
      trueDelta delta hedge own s +
        if product = own then delta (checkedKey product c) * c.fillQtySigned else 0 := by
  by_cases zero : c.fillQtySigned = 0
  · rw [applyChecked, zero, addFill_zero]
    simp
  · obtain ⟨-, -, -, shape⟩ := addFill_cases indexed product c.optionStrike c.optionExpiry c.optionRight zero price
      spread spreadMid
    obtain ⟨w, moved, weight⟩ := @filled_weighed own (fun p => delta p.key) _ _ _ shape fun _ _ _ => rfl
    have contract : w = delta (checkedKey product c) := by
      rcases weight with ⟨pos, -, same, rfl⟩ | ⟨-, rfl⟩
      · exact congrArg delta same
      · rfl
    unfold trueDelta applyChecked
    rw [moved, contract, add_right_comm]
    rfl

theorem current_read {s : PortfolioState} (current : Current delta cfg.product s) {c : ConstraintCheck ℚ}
    (counted : cfg.effectiveDeltaGating ∨ hedge = 0) (passed : c.hedgeQty = hedge) :
    s.deltaForProduct cfg.product + countedHedge cfg c = trueDelta delta hedge cfg.product s := by
  have stored : s.deltaForProduct cfg.product = weighed cfg.product (fun p => delta p.key) s.positions :=
    weighed_congr current
  have hedged : countedHedge cfg c = hedge := by
    unfold countedHedge
    rcases counted with gating | flat
    · rw [if_pos gating, passed]
    · rw [passed, flat]
      exact ite_self _
  rw [stored, hedged]
  rfl

theorem gated_step (noEscape : cfg.marginEscapeEnabled = false) (counted : cfg.effectiveDeltaGating ∨ hedge = 0)
    {initial : ℚ} {s : PortfolioState} (indexed : Indexed s)
    (inside : InsideLimits cfg initial (trueDelta delta hedge cfg.product s)) {e : GatedEvent}
    (lawful : Lawful delta hedge s e) (current : CurrentAt delta cfg.product s e) :
    Indexed (gatedStep fmt cfg s e).1 ∧
      InsideLimits cfg initial (trueDelta delta hedge cfg.product (gatedStep fmt cfg s e).1) := by
  cases e with
  | refresh pricing market =>
    refine ⟨refreshed_indexed indexed pricing market, ?_⟩
    simp only [gatedStep, refresh_trueDelta]
    exact inside
  | fill product c price spread spreadMid =>
    simp only [gatedStep]
    split
    · rename_i accepted
      refine ⟨applyChecked_indexed indexed product c price spread spreadMid, ?_⟩
      rw [applyChecked_trueDelta indexed]
      split
      · obtain ⟨kill, ceiling⟩ := accepted_delta noEscape accepted (current_read current counted lawful.2)
        rw [lawful.1] at kill ceiling
        refine ⟨?_, .inr kill⟩
        rcases ceiling with within | improves
        · exact within.trans (le_max_left _ _)
        · exact improves.le.trans inside.ceiling
      · rw [add_zero]
        exact inside
    · exact ⟨indexed, inside⟩

end Limits

section Unrefreshed

def hgConstraints : ConstraintConfig ℚ where
  product := "HG"
  capital := 200000
  marginCeilingPct := 1/2
  deltaCeiling := 3
  thetaFloor := -200
  marginKillPct := 7/10
  deltaKill := 5
  thetaKill := -500
  effectiveDeltaGating := true
  marginEscapeEnabled := false

def hgBook : PortfolioState := .new (ProductRegistry.register ∅ ⟨"HG", 25000, 0⟩)

-- One contract of delta 1, traded with no margin in the way.
def unitCheck (quantity : ℤ) : ConstraintCheck ℚ where
  optionStrike := 6
  optionRight := .call
  optionExpiry := .epoch
  optionDeltaPerContract := 1
  optionThetaPerContract := 0
  fillQtySigned := quantity
  multiplier := 25000
  curMargin := 0
  postMargin := 0
  curLongPremium := 0
  postLongPremium := 0
  hedgeQty := 0

def trade (quantity : ℤ) : GatedEvent := .fill "HG" (unitCheck quantity) (1/10) 0 0

def noDigits : NumberFormat ℚ := ⟨fun _ _ => "", fun _ _ => ""⟩
def atSeven : MarketView := ⟨fun _ => some 7, fun _ _ _ _ => none, fun _ _ _ _ => none⟩

end Unrefreshed

-- Two accepted fills with no refresh between them: the second does not see the first.
theorem unrefreshed_passes_kill :
    Indexed hgBook ∧
      Machine.Along (gatedStep noDigits hgConstraints) (fun s e => Lawful (fun _ => 1) 0 s e) hgBook
        [trade 3, trade 3] ∧
      Machine.emitted (gatedStep noDigits hgConstraints) hgBook [trade 3, trade 3] = [.accepted, .accepted] ∧
      ¬InsideLimits hgConstraints (trueDelta (fun _ => 1) 0 "HG" hgBook)
        (trueDelta (fun _ => 1) 0 "HG" (Machine.after (gatedStep noDigits hgConstraints) hgBook [trade 3, trade 3])) := by
  refine ⟨new_indexed _, ⟨⟨rfl, rfl⟩, ⟨rfl, rfl⟩, trivial⟩, by decide +kernel, ?_⟩
  intro inside
  have past := inside.ceiling
  revert past
  decide +kernel

theorem gated_inside_limits {fmt : NumberFormat ℚ} {cfg : ConstraintConfig ℚ} {delta : PositionKey → ℚ} {hedge : ℤ}
    (noEscape : cfg.marginEscapeEnabled = false) (counted : cfg.effectiveDeltaGating ∨ hedge = 0)
    {s : PortfolioState} (indexed : Indexed s) {events : List GatedEvent}
    (along : Machine.Along (gatedStep fmt cfg)
      (fun s e => Lawful delta hedge s e ∧ CurrentAt delta cfg.product s e) s events) :
    InsideLimits cfg (trueDelta delta hedge cfg.product s)
      (trueDelta delta hedge cfg.product (Machine.after (gatedStep fmt cfg) s events)) := by
  have kept := Machine.reached
    (fun next => Indexed next ∧ InsideLimits cfg (trueDelta delta hedge cfg.product s)
      (trueDelta delta hedge cfg.product next))
    (fun next e meets held => gated_step noEscape counted held.1 held.2 meets.1 meets.2)
    ⟨indexed, le_max_right _ _, .inl rfl⟩ along
  exact kept.2

theorem gated_inside_limits_refreshed :
    InsideLimits hgConstraints (trueDelta (fun _ => 1) 0 hgConstraints.product hgBook)
      (trueDelta (fun _ => 1) 0 hgConstraints.product (Machine.after (gatedStep noDigits hgConstraints) hgBook
        [trade 3, .refresh intrinsicPricing atSeven, trade (-1)])) := by
  refine gated_inside_limits rfl (.inl rfl) (new_indexed _) ⟨⟨⟨rfl, rfl⟩, ?_⟩, ⟨?_, trivial⟩, ⟨⟨rfl, rfl⟩, ?_⟩, trivial⟩
  · change ∀ p ∈ PortfolioState.positions _, p.product = "HG" → p.delta = 1
    decide +kernel
  · unfold Lawful
    decide +kernel
  · change ∀ p ∈ PortfolioState.positions _, p.product = "HG" → p.delta = 1
    decide +kernel

end Corsair.Constraint
