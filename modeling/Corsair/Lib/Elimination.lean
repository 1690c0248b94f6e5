import Mathlib.Algebra.BigOperators.Fin
import Mathlib.Algebra.BigOperators.Ring.Finset
import Mathlib.Algebra.Field.Basic
import Mathlib.Tactic.FieldSimp
import Mathlib.Tactic.Ring

-- Row operations on a system of linear equations, and its solution from the last row up.
namespace Elimination

variable {𝕜 ι : Type*} [Field 𝕜] [Fintype ι]

def Solves (a : ι → ι → 𝕜) (b : ι → 𝕜) (x : ι → 𝕜) : Prop := ∀ i, ∑ j, a i j * x j = b i

theorem solves_permuted {a : ι → ι → 𝕜} {b x : ι → 𝕜} (σ : Equiv.Perm ι) :
    Solves (fun i => a (σ i)) (fun i => b (σ i)) x ↔ Solves a b x :=
  σ.forall_congr_left.trans (by simp [Solves])

section Subtract

variable [DecidableEq ι]

def subtract (a : ι → ι → 𝕜) (factor : 𝕜) (k i : ι) : ι → ι → 𝕜 :=
  Function.update a i fun j => a i j - factor * a k j

theorem solves_subtract {a : ι → ι → 𝕜} {b x : ι → 𝕜} (factor : 𝕜) {k i : ι} (other : k ≠ i) :
    Solves (subtract a factor k i) (Function.update b i (b i - factor * b k)) x ↔ Solves a b x := by
  have reduced : ∑ j, (a i j - factor * a k j) * x j = ∑ j, a i j * x j - factor * ∑ j, a k j * x j := by
    rw [Finset.mul_sum, ← Finset.sum_sub_distrib]
    apply Finset.sum_congr rfl
    intro j _
    ring
  unfold Solves subtract
  constructor
  · intro given row
    by_cases own : row = i
    · subst own
      have pivot := given k
      have changed := given row
      simp only [Function.update_self, Function.update_of_ne other] at pivot changed
      rw [reduced, pivot] at changed
      exact sub_left_injective changed
    · have same := given row
      simpa only [Function.update_of_ne own] using same
  · intro given row
    by_cases own : row = i
    · subst own
      simp only [Function.update_self]
      rw [reduced, given, given]
    · simpa only [Function.update_of_ne own] using given row

end Subtract

section Substitute

variable [LinearOrder ι] {a : ι → ι → 𝕜}

def Triangular (a : ι → ι → 𝕜) : Prop := ∀ i j, j < i → a i j = 0

theorem triangular_sum (upper : Triangular a) (x : ι → 𝕜) (i : ι) :
    ∑ j, a i j * x j = a i i * x i + ∑ j with i < j, a i j * x j := by
  have others : ∀ j, j ≠ i → ¬i < j → a i j * x j = 0 := by
    intro j other notAbove
    rw [upper i j (lt_of_le_of_ne (not_lt.mp notAbove) other), zero_mul]
  rw [← Finset.add_sum_erase _ _ (Finset.mem_univ i)]
  congr 1
  symm
  apply Finset.sum_subset
  · intro j above
    exact Finset.mem_erase.mpr ⟨(Finset.mem_filter.mp above).2.ne', Finset.mem_univ j⟩
  · intro j member outside
    exact others j (Finset.ne_of_mem_erase member) (by simpa using outside)

theorem later_sum {x : ι → 𝕜} {i row : ι} (later : i ≤ row) (value : 𝕜) :
    ∑ j with row < j, a row j * Function.update x i value j = ∑ j with row < j, a row j * x j := by
  apply Finset.sum_congr rfl
  intro j above
  rw [Function.update_of_ne (lt_of_le_of_lt later (Finset.mem_filter.mp above).2).ne']

-- One row solved for its own unknown: the rows below keep their sums.
theorem substitute_solves (upper : Triangular a) {b x : ι → 𝕜} {i : ι} (pivot : a i i ≠ 0)
    (below : ∀ row, i < row → ∑ j, a row j * x j = b row) {row : ι} (solved : i ≤ row) :
    ∑ j, a row j * Function.update x i ((b i - ∑ j with i < j, a i j * x j) / a i i) j = b row := by
  rw [triangular_sum upper, later_sum solved]
  rcases eq_or_lt_of_le solved with own | above
  · subst own
    rw [Function.update_self, mul_div_cancel₀ _ pivot]
    ring
  · rw [Function.update_of_ne above.ne', ← triangular_sum upper]
    exact below row above

end Substitute

end Elimination
