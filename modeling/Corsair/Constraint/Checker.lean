import Corsair.Book.Portfolio
import Corsair.Floating

namespace Corsair.Constraint

open BrokerApi Book

-- gates.rs
inductive GateOutcome where
  | accepted
  | rejected (reason detail : String)
  | acceptedMarginEscape (detail : String)
  deriving DecidableEq, Repr

def GateOutcome.isAccepted : GateOutcome → Bool
  | .accepted | .acceptedMarginEscape _ => true
  | .rejected .. => false

-- The numbers of a check: f64, or ℚ where a result is about exact arithmetic. They
-- need the operators and these two, f64::abs and the cast of an i32.
class GateNumber (α : Type) where
  abs : α → α
  ofInt : ℤ → α

instance : GateNumber ℚ := ⟨fun x => |x|, fun n => n⟩
instance : GateNumber F64 := ⟨F64.abs, fun n => F64.ofRat n⟩

open GateNumber (ofInt)

-- checker.rs
structure ConstraintConfig (α : Type) where
  product : String
  capital : α
  marginCeilingPct : α
  deltaCeiling : α
  thetaFloor : α
  marginKillPct : α
  deltaKill : α
  thetaKill : α
  effectiveDeltaGating : Bool
  marginEscapeEnabled : Bool

def ConstraintConfig.marginCeiling {α : Type} [Mul α] (cfg : ConstraintConfig α) : α := cfg.capital * cfg.marginCeilingPct
def ConstraintConfig.marginKill {α : Type} [Mul α] (cfg : ConstraintConfig α) : α := cfg.capital * cfg.marginKillPct

structure ConstraintCheck (α : Type) where
  optionStrike : α
  optionRight : Right
  optionExpiry : NaiveDate
  optionDeltaPerContract : α
  optionThetaPerContract : α
  fillQtySigned : ℤ
  multiplier : α
  curMargin : α
  postMargin : α
  curLongPremium : α
  postLongPremium : α
  hedgeQty : ℤ

-- What check reads of a position.
structure Holding (α : Type) where
  product : String
  quantity : ℤ
  delta : α
  theta : α

def holdings (portfolio : PortfolioState) : List (Holding ℚ) :=
  portfolio.positions.map fun p => ⟨p.product, p.quantity, p.delta, p.theta⟩

-- format!'s {:.n} and {:+.n} of a float, which only the rejection texts use.
structure NumberFormat (α : Type) where
  fixed : ℕ → α → String
  signed : ℕ → α → String

section Check

variable {α : Type} [Zero α] [Add α] [Mul α] [LE α] [LT α] [DecidableLE α] [DecidableLT α] [GateNumber α]
variable (fmt : NumberFormat α) (cfg : ConstraintConfig α) (c : ConstraintCheck α) (positions : List (Holding α))

def forProduct (greek : Holding α → α) (product : String) : α :=
  ((positions.filter (·.product = product)).map fun p => greek p * ofInt p.quantity).foldl (· + ·) 0

def deltaForProduct (product : String) : α := forProduct positions Holding.delta product
def thetaForProduct (product : String) : α := forProduct positions Holding.theta product

def countedHedge : ℤ := if cfg.effectiveDeltaGating then c.hedgeQty else 0

-- The figures of the product before and after the fill.
def curDelta : α := deltaForProduct positions cfg.product + ofInt (countedHedge cfg c)
def postDelta : α := curDelta cfg c positions + c.optionDeltaPerContract * ofInt c.fillQtySigned
def curTheta : α := thetaForProduct positions cfg.product
def postTheta : α := curTheta cfg positions + c.optionThetaPerContract * c.multiplier * ofInt c.fillQtySigned

def hardKill (postDelta postTheta : α) : Option GateOutcome :=
  if cfg.marginKill < c.postMargin then
    some (.rejected "margin_kill" s!"margin_kill: post=${fmt.fixed 0 c.postMargin} > kill=${fmt.fixed 0 cfg.marginKill}")
  else if cfg.deltaKill < GateNumber.abs postDelta then
    some (.rejected "delta_kill" s!"delta_kill: post={fmt.signed 2 postDelta} > ±{fmt.fixed 1 cfg.deltaKill}")
  else if cfg.thetaKill < 0 ∧ postTheta < cfg.thetaKill then
    some (.rejected "theta_kill" s!"theta_kill: post=${fmt.fixed 0 postTheta} < ${fmt.fixed 0 cfg.thetaKill}")
  else none

def marginEscape : Option GateOutcome :=
  if cfg.marginEscapeEnabled ∧ cfg.marginCeiling < c.curMargin ∧ c.postMargin < c.curMargin then
    if cfg.capital < c.postLongPremium ∧ c.curLongPremium < c.postLongPremium then
      some (.rejected "long_premium"
        s!"long_premium: post=${fmt.fixed 0 c.postLongPremium} > cap=${fmt.fixed 0 cfg.capital} (escape mode)")
    else some (.acceptedMarginEscape
      s!"margin escape: cur=${fmt.fixed 0 c.curMargin} > ceiling=${fmt.fixed 0 cfg.marginCeiling}, post=${fmt.fixed 0 c.postMargin} reduces breach")
  else none

def strict (curDelta postDelta curTheta postTheta : α) : GateOutcome :=
  if cfg.marginCeiling < c.postMargin ∧ cfg.marginCeiling < c.curMargin ∧ c.curMargin ≤ c.postMargin then
    .rejected "margin"
      s!"margin: post=${fmt.fixed 0 c.postMargin} > ceiling=${fmt.fixed 0 cfg.marginCeiling} (currently breached, fill not improving)"
  else if cfg.marginCeiling < c.postMargin ∧ c.curMargin ≤ cfg.marginCeiling then
    .rejected "margin" s!"margin: post=${fmt.fixed 0 c.postMargin} > ceiling=${fmt.fixed 0 cfg.marginCeiling}"
  else if cfg.deltaCeiling < GateNumber.abs postDelta ∧ GateNumber.abs curDelta ≤ GateNumber.abs postDelta then
    .rejected "delta"
      s!"delta: post={fmt.signed 2 postDelta} > ±{fmt.fixed 1 cfg.deltaCeiling} (cur={fmt.signed 2 curDelta})"
  else if postTheta < cfg.thetaFloor ∧ postTheta ≤ curTheta then
    .rejected "theta"
      s!"theta: post=${fmt.fixed 0 postTheta} < ${fmt.fixed 0 cfg.thetaFloor} (cur=${fmt.fixed 0 curTheta})"
  else if cfg.capital < c.postLongPremium ∧ c.curLongPremium < c.postLongPremium then
    .rejected "long_premium"
      s!"long_premium: post=${fmt.fixed 0 c.postLongPremium} > cap=${fmt.fixed 0 cfg.capital}"
  else .accepted

def check : GateOutcome :=
  match hardKill fmt cfg c (postDelta cfg c positions) (postTheta cfg c positions) with
  | some outcome => outcome
  | none => match marginEscape fmt cfg c with
    | some outcome => outcome
    | none =>
      strict fmt cfg c (curDelta cfg c positions) (postDelta cfg c positions) (curTheta cfg positions)
        (postTheta cfg c positions)

-- The comparisons check makes, under the names of the limits they test. Nothing is
-- assumed of the order here: a NaN makes each of them false.
def Escapes : Prop := cfg.marginEscapeEnabled ∧ cfg.marginCeiling < c.curMargin ∧ c.postMargin < c.curMargin

def Alive : Prop :=
  ¬cfg.marginKill < c.postMargin ∧ ¬cfg.deltaKill < GateNumber.abs (postDelta cfg c positions) ∧
    ¬(cfg.thetaKill < 0 ∧ postTheta cfg c positions < cfg.thetaKill)

inductive Refused : Prop where
  | marginKill (past : cfg.marginKill < c.postMargin)
  | deltaKill (past : cfg.deltaKill < GateNumber.abs (postDelta cfg c positions))
  | thetaKill (set : cfg.thetaKill < 0) (past : postTheta cfg c positions < cfg.thetaKill)
  | longPremium (beyond : cfg.capital < c.postLongPremium) (raised : c.curLongPremium < c.postLongPremium)
  | margin (stays : ¬Escapes cfg c) (beyond : cfg.marginCeiling < c.postMargin)
      (worse : cfg.marginCeiling < c.curMargin ∧ c.curMargin ≤ c.postMargin ∨ c.curMargin ≤ cfg.marginCeiling)
  | delta (stays : ¬Escapes cfg c) (beyond : cfg.deltaCeiling < GateNumber.abs (postDelta cfg c positions))
      (worse : GateNumber.abs (curDelta cfg c positions) ≤ GateNumber.abs (postDelta cfg c positions))
  | theta (stays : ¬Escapes cfg c) (under : postTheta cfg c positions < cfg.thetaFloor)
      (worse : postTheta cfg c positions ≤ curTheta cfg positions)

-- All a check can come to.
inductive Verdict : GateOutcome → Prop where
  | refused (reason detail : String) (past : Refused cfg c positions) : Verdict (.rejected reason detail)
  | escaped (detail : String) (clear : ¬Refused cfg c positions) (escapes : Escapes cfg c) :
      Verdict (.acceptedMarginEscape detail)
  | passed (clear : ¬Refused cfg c positions) (stays : ¬Escapes cfg c) : Verdict .accepted

end Check

section Verdict

variable {α : Type} [Zero α] [Add α] [Mul α] [LE α] [LT α] [DecidableLE α] [DecidableLT α] [GateNumber α]
variable (fmt : NumberFormat α) {cfg : ConstraintConfig α} {c : ConstraintCheck α} {positions : List (Holding α)}

omit [LE α] [DecidableLE α] in
theorem hardKill_none (alive : Alive cfg c positions) :
    hardKill fmt cfg c (postDelta cfg c positions) (postTheta cfg c positions) = none := by
  rw [hardKill, if_neg alive.1, if_neg alive.2.1, if_neg alive.2.2]

omit [DecidableLE α] in
theorem hardKill_verdict (dead : ¬Alive cfg c positions) :
    ∃ outcome, hardKill fmt cfg c (postDelta cfg c positions) (postTheta cfg c positions) = some outcome ∧
      Verdict cfg c positions outcome := by
  unfold hardKill
  split
  · rename_i margin
    exact ⟨_, rfl, .refused _ _ (.marginKill margin)⟩
  · rename_i margin
    split
    · rename_i delta
      exact ⟨_, rfl, .refused _ _ (.deltaKill delta)⟩
    · rename_i delta
      split
      · rename_i theta
        exact ⟨_, rfl, .refused _ _ (.thetaKill theta.1 theta.2)⟩
      · rename_i theta
        exact absurd ⟨margin, delta, theta⟩ dead

omit [Zero α] [Add α] [LE α] [DecidableLE α] [GateNumber α] in
theorem marginEscape_none (stays : ¬Escapes cfg c) : marginEscape fmt cfg c = none := if_neg stays

omit [DecidableLE α] [DecidableLT α] in
-- The gates left once the hard limits pass: none under the escape but solvency.
theorem refused_cases (alive : Alive cfg c positions) (refused : Refused cfg c positions) :
    (cfg.capital < c.postLongPremium ∧ c.curLongPremium < c.postLongPremium) ∨ ¬Escapes cfg c := by
  cases refused with
  | marginKill past => exact absurd past alive.1
  | deltaKill past => exact absurd past alive.2.1
  | thetaKill set past => exact absurd ⟨set, past⟩ alive.2.2
  | longPremium beyond raised => exact .inl ⟨beyond, raised⟩
  | margin stays beyond worse => exact .inr stays
  | delta stays beyond worse => exact .inr stays
  | theta stays under worse => exact .inr stays

omit [DecidableLE α] in
theorem marginEscape_verdict (alive : Alive cfg c positions) (escapes : Escapes cfg c) :
    ∃ outcome, marginEscape fmt cfg c = some outcome ∧ Verdict cfg c positions outcome := by
  unfold marginEscape
  split
  · split
    · rename_i insolvent
      exact ⟨_, rfl, .refused _ _ (.longPremium insolvent.1 insolvent.2)⟩
    · rename_i solvent
      refine ⟨_, rfl, .escaped _ ?_ escapes⟩
      intro refused
      rcases refused_cases alive refused with insolvent | stays
      · exact solvent insolvent
      · exact stays escapes
  · rename_i stays
    exact absurd escapes stays

-- Past the hard limits and the escape, strict refuses exactly what is left to refuse.
theorem strict_verdict (alive : Alive cfg c positions) (stays : ¬Escapes cfg c) :
    Verdict cfg c positions (strict fmt cfg c (curDelta cfg c positions) (postDelta cfg c positions)
      (curTheta cfg positions) (postTheta cfg c positions)) := by
  unfold strict
  split
  · rename_i worse
    exact .refused _ _ (.margin stays worse.1 (.inl worse.2))
  · rename_i kept
    split
    · rename_i breach
      exact .refused _ _ (.margin stays breach.1 (.inr breach.2))
    · rename_i inside
      split
      · rename_i out
        exact .refused _ _ (.delta stays out.1 out.2)
      · rename_i near
        split
        · rename_i low
          exact .refused _ _ (.theta stays low.1 low.2)
        · rename_i high
          split
          · rename_i insolvent
            exact .refused _ _ (.longPremium insolvent.1 insolvent.2)
          · rename_i solvent
            refine .passed ?_ stays
            intro refused
            cases refused with
            | marginKill past => exact alive.1 past
            | deltaKill past => exact alive.2.1 past
            | thetaKill set past => exact alive.2.2 ⟨set, past⟩
            | longPremium beyond raised => exact solvent ⟨beyond, raised⟩
            | margin _ beyond worse =>
              rcases worse with breached | was
              · exact kept ⟨beyond, breached⟩
              · exact inside ⟨beyond, was⟩
            | delta _ beyond worse => exact near ⟨beyond, worse⟩
            | theta _ under worse => exact high ⟨under, worse⟩

theorem check_verdict (fmt : NumberFormat α) (cfg : ConstraintConfig α) (c : ConstraintCheck α)
    (positions : List (Holding α)) : Verdict cfg c positions (check fmt cfg c positions) := by
  unfold check
  by_cases alive : Alive cfg c positions
  · rw [hardKill_none fmt alive]
    by_cases escapes : Escapes cfg c
    · obtain ⟨outcome, decided, verdict⟩ := marginEscape_verdict fmt alive escapes
      rw [decided]
      exact verdict
    · rw [marginEscape_none fmt escapes]
      exact strict_verdict fmt alive escapes
  · obtain ⟨outcome, decided, verdict⟩ := hardKill_verdict fmt alive
    rw [decided]
    exact verdict

theorem accepted_clear {fmt : NumberFormat α} (accepted : (check fmt cfg c positions).isAccepted) : ¬Refused cfg c positions := by
  have verdict := check_verdict fmt cfg c positions
  generalize check fmt cfg c positions = outcome at accepted verdict
  cases verdict with
  | refused => cases accepted
  | escaped detail clear escapes => exact clear
  | passed clear stays => exact clear

end Verdict

-- In exact arithmetic the product's sum is the book's.
theorem holdings_delta (portfolio : PortfolioState) (product : String) :
    deltaForProduct (holdings portfolio) product = portfolio.deltaForProduct product := by
  unfold deltaForProduct forProduct holdings PortfolioState.deltaForProduct
  rw [List.filter_map, List.map_map, ← List.sum_eq_foldl]
  rfl

-- What acceptance without the escape says of the delta: after the fill it is within
-- the kill, and within the ceiling unless the fill improves on it.
theorem accepted_delta {fmt : NumberFormat ℚ} {cfg : ConstraintConfig ℚ} {c : ConstraintCheck ℚ}
    {portfolio : PortfolioState} (noEscape : cfg.marginEscapeEnabled = false)
    (accepted : (check fmt cfg c (holdings portfolio)).isAccepted) {cur : ℚ}
    (read : portfolio.deltaForProduct cfg.product + countedHedge cfg c = cur) :
    |cur + c.optionDeltaPerContract * c.fillQtySigned| ≤ cfg.deltaKill ∧
      (|cur + c.optionDeltaPerContract * c.fillQtySigned| ≤ cfg.deltaCeiling ∨
        |cur + c.optionDeltaPerContract * c.fillQtySigned| < |cur|) := by
  have now : curDelta cfg c (holdings portfolio) = cur := by
    rw [curDelta, holdings_delta]
    exact read
  have clear := accepted_clear accepted
  have stays : ¬Escapes cfg c := by
    intro escapes
    rw [Escapes, noEscape] at escapes
    exact absurd escapes.1 Bool.false_ne_true
  have kill : ¬cfg.deltaKill < GateNumber.abs (postDelta cfg c (holdings portfolio)) := fun past => clear (.deltaKill past)
  have ceiling : ¬(cfg.deltaCeiling < GateNumber.abs (postDelta cfg c (holdings portfolio)) ∧
      GateNumber.abs (curDelta cfg c (holdings portfolio)) ≤ GateNumber.abs (postDelta cfg c (holdings portfolio))) :=
    fun past => clear (.delta stays past.1 past.2)
  rw [postDelta, now] at kill ceiling
  rw [not_and_or, not_lt, not_le] at ceiling
  exact ⟨not_lt.mp kill, ceiling⟩

end Corsair.Constraint
