import Mathlib.Tactic.Linarith
import Corsair.Double

namespace Corsair

section Nearest

variable {x y : ℚ} {n : ℤ}

theorem round_le_iff (positive : 0 ≤ x) : roundHalfAway x ≤ n ↔ x < n + 1/2 := by
  rw [roundHalfAway, if_pos positive, ← Int.lt_add_one_iff, Int.floor_lt]
  push_cast
  constructor <;> intro given <;> linarith

theorem le_round_iff (positive : 0 ≤ x) : n ≤ roundHalfAway x ↔ n - 1/2 ≤ x := by
  rw [roundHalfAway, if_pos positive, Int.le_floor, sub_le_iff_le_add]

theorem round_int (n : ℤ) : roundHalfAway n = n := by
  unfold roundHalfAway
  split
  · rw [Int.floor_intCast_add]
    norm_num
  · rw [← Int.cast_neg, Int.floor_intCast_add]
    norm_num

theorem round_nonneg (positive : 0 ≤ x) : 0 ≤ roundHalfAway x := by
  apply (le_round_iff positive).mpr
  push_cast
  linarith

end Nearest

-- The nearest multiple of a unit, and the midpoints of the grid next to a value:
-- from which on, and up to which, a number goes past it.
def snap (step x : ℚ) : ℚ := roundHalfAway (x / step) * step

def midpointAbove (step y : ℚ) : ℚ := (⌊y / step⌋ + 1/2) * step

def midpointBelow (step y : ℚ) : ℚ := (⌈y / step⌉ - 1/2) * step

section Grid

variable {step x y : ℚ}

theorem midpointAbove_zero (step : ℚ) : midpointAbove step 0 = step / 2 := by
  rw [midpointAbove, zero_div, Int.floor_zero, Int.cast_zero, zero_add, one_div_mul_eq_div]

theorem snap_nonneg (unit : 0 < step) (positive : 0 ≤ x) : 0 ≤ snap step x := by
  have rounded := round_nonneg (div_nonneg positive unit.le)
  exact mul_nonneg (Int.cast_nonneg rounded) unit.le

theorem snap_le_iff (unit : 0 < step) (positive : 0 ≤ x) : snap step x ≤ y ↔ x < midpointAbove step y := by
  rw [snap, midpointAbove, ← le_div_iff₀ unit, ← Int.le_floor, round_le_iff (div_nonneg positive unit.le),
    div_lt_iff₀ unit]

theorem le_snap_iff (unit : 0 < step) (positive : 0 ≤ x) : y ≤ snap step x ↔ midpointBelow step y ≤ x := by
  rw [snap, midpointBelow, ← div_le_iff₀ unit, ← Int.ceil_le, le_round_iff (div_nonneg positive unit.le),
    le_div_iff₀ unit]

theorem snap_lt_iff (unit : 0 < step) (positive : 0 ≤ x) : snap step x < y ↔ x < midpointBelow step y := by
  rw [← not_le, le_snap_iff unit positive, not_le]

theorem lt_snap_iff (unit : 0 < step) (positive : 0 ≤ x) : y < snap step x ↔ midpointAbove step y ≤ x := by
  rw [← not_le, snap_le_iff unit positive, not_lt]

theorem snap_multiple (unit : step ≠ 0) (n : ℤ) : snap step (n * step) = n * step := by
  rw [snap, mul_div_cancel_right₀ _ unit, round_int]

end Grid

end Corsair
