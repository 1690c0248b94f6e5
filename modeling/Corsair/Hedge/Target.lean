import Mathlib.Tactic.Linarith
import Corsair.Hedge.Manager

namespace Corsair.Hedge

open BrokerApi Book

theorem roundHalfAway_near (x : ℚ) : |x - roundHalfAway x| ≤ 1/2 := by
  unfold roundHalfAway
  rw [abs_le]
  split
  · have below := Int.floor_le (x + 1/2)
    have above := Int.lt_floor_add_one (x + 1/2)
    constructor <;> linarith
  · have below := Int.floor_le (-x + 1/2)
    have above := Int.lt_floor_add_one (-x + 1/2)
    push_cast
    constructor <;> linarith

-- The signed quantity of the trade an action stands for.
def HedgeAction.trade : HedgeAction → ℤ
  | .idle => 0
  | .place isBuy qty _ _ _ | .logOnly isBuy qty _ _ => if isBuy then qty else -qty

def targetFor (delta : ℚ) : ℤ := saturate (-2^31) (2^31 - 1) (-(roundHalfAway delta))

theorem targetFor_exact {delta : ℚ} (fits : |roundHalfAway delta| < 2^31) :
    targetFor delta = -(roundHalfAway delta) := by
  rw [abs_lt] at fits
  unfold targetFor saturate
  omega

theorem targetFor_near {delta : ℚ} (fits : |roundHalfAway delta| < 2^31) : |delta + targetFor delta| ≤ 1/2 := by
  rw [targetFor_exact fits]
  have near := roundHalfAway_near delta
  push_cast
  rwa [← sub_eq_add_neg]

namespace HedgeManager

variable (m : HedgeManager) (portfolio : PortfolioState)

theorem targetQty_eq : m.targetQty portfolio = targetFor (portfolio.deltaForProduct m.cfg.product) := by
  unfold targetQty targetFor
  simp only [add_sub_cancel_right]

theorem signed_natAbs (n : ℤ) : (if decide (0 < n) then (n.natAbs : ℤ) else -n.natAbs) = n := by
  by_cases positive : 0 < n
  · simp only [positive, decide_true, if_true]
    omega
  · simp only [positive, decide_false, Bool.false_eq_true, if_false]
    omega

theorem rebalance_trade (override : Option ℚ) (reason : String) (forward : ℚ) :
    (m.rebalance portfolio override reason forward).2.trade =
      targetFor (portfolio.deltaForProduct m.cfg.product) - m.hedgeQty := by
  unfold rebalance
  rw [targetQty_eq]
  simp only
  split
  · rename_i small
    simp only [HedgeAction.trade]
    omega
  · split
    · rename_i same
      exact same.symm
    · split
      · exact signed_natAbs _
      · exact signed_natAbs _

theorem maybeRebalance_trade (reason : String) (forward : ℚ) :
    (m.maybeRebalance portfolio reason forward).2.trade =
      if m.cfg.toleranceDeltas < |portfolio.deltaForProduct m.cfg.product + m.hedgeQty| then
        targetFor (portfolio.deltaForProduct m.cfg.product) - m.hedgeQty
      else 0 := by
  unfold maybeRebalance
  simp only
  split
  · rename_i within
    rw [if_neg (not_lt.mpr within)]
    rfl
  · rename_i beyond
    rw [if_pos (not_le.mp beyond)]
    exact rebalance_trade ..

end HedgeManager

end Corsair.Hedge
