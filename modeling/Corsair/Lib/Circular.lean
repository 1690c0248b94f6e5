import Mathlib.Data.List.Basic

-- A log that only grows, kept in a fixed number of cells: entry k lies in cell k modulo
-- their number.
namespace Circular

variable {α : Type*}

def splice (cells : List α) (pos : ℕ) (xs : List α) : List α := cells.take pos ++ xs ++ cells.drop (pos + xs.length)
def slice (cells : List α) (pos n : ℕ) : List α := (cells.drop pos).take n

-- The cells hold the entries of the log from `low` up to `high`.
def Holds (cells log : List α) (low high : ℕ) : Prop :=
  ∀ k, low ≤ k → k < high → cells[k % cells.length]? = log[k]?

theorem splice_length {cells xs : List α} {pos : ℕ} (fits : pos + xs.length ≤ cells.length) :
    (splice cells pos xs).length = cells.length := by
  simp only [splice, List.length_append, List.length_take, List.length_drop]
  omega

theorem splice_inside {cells xs : List α} {pos : ℕ} (fits : pos + xs.length ≤ cells.length) {i : ℕ}
    (inside : i < xs.length) : (splice cells pos xs)[pos + i]? = xs[i]? := by
  have front : (cells.take pos).length = pos := by
    rw [List.length_take]
    omega
  unfold splice
  rw [List.append_assoc, List.getElem?_append_right (by omega), front, Nat.add_sub_cancel_left,
    List.getElem?_append_left inside]

theorem splice_outside {cells xs : List α} {pos : ℕ} (fits : pos + xs.length ≤ cells.length) {j : ℕ}
    (outside : j < pos ∨ pos + xs.length ≤ j) : (splice cells pos xs)[j]? = cells[j]? := by
  have front : (cells.take pos).length = pos := by
    rw [List.length_take]
    omega
  unfold splice
  rcases outside with before | after
  · rw [List.append_assoc, List.getElem?_append_left (by omega), List.getElem?_take_of_lt before]
  · rw [List.getElem?_append_right (by rw [List.length_append]; omega), List.length_append, front, List.getElem?_drop]
    congr 1
    omega

theorem holds_narrow {cells log : List α} {low high low' high' : ℕ} (holds : Holds cells log low high)
    (above : low ≤ low') (below : high' ≤ high) : Holds cells log low' high' :=
  fun k from_low to_high => holds k (Nat.le_trans above from_low) (Nat.lt_of_lt_of_le to_high below)

theorem holds_extend {cells log : List α} {low high : ℕ} (holds : Holds cells log low high)
    (logged : high ≤ log.length) (more : List α) : Holds cells (log ++ more) low high := by
  intro k from_low to_high
  rw [holds k from_low to_high, List.getElem?_append_left (by omega)]

-- Entries less than a round apart lie in different cells.
theorem cells_apart {c k p : ℕ} (before : k < p) (near : p < k + c) : k % c ≠ p % c := by
  intro same
  have whole : (p - k) % c = 0 := Nat.sub_mod_eq_zero_of_mod_eq same.symm
  rw [Nat.mod_eq_of_lt (by omega)] at whole
  omega

theorem cell_next {c high i : ℕ} (fits : high % c + i < c) : (high + i) % c = high % c + i := by
  have round := Nat.mod_add_div high c
  have split : high + i = high % c + i + c * (high / c) := by omega
  rw [split, Nat.add_mul_mod_self_left, Nat.mod_eq_of_lt fits]

-- Writing the next entries, short of a full round ahead of the oldest one kept.
theorem holds_splice {cells log xs : List α} {low high : ℕ} (holds : Holds cells log low high)
    (fits : high % cells.length + xs.length ≤ cells.length) (room : high + xs.length ≤ low + cells.length)
    (next : ∀ i, i < xs.length → log[high + i]? = xs[i]?) :
    Holds (splice cells (high % cells.length) xs) log low (high + xs.length) := by
  intro k from_low to_high
  rw [splice_length fits]
  by_cases old : k < high
  · rw [splice_outside fits, holds k from_low old]
    by_contra inside
    have own : (high + (k % cells.length - high % cells.length)) % cells.length = k % cells.length := by
      rw [cell_next (by omega)]
      omega
    exact @cells_apart cells.length k (high + (k % cells.length - high % cells.length))
      (by omega) (by omega) own.symm
  · have position : k = high + (k - high) := by omega
    rw [position, cell_next (by omega), splice_inside fits (by omega)]
    exact (next _ (by omega)).symm

-- Reading entries that are kept, as far as the last cell.
theorem slice_holds {cells log : List α} {low high n : ℕ} (holds : Holds cells log low high)
    (fits : low % cells.length + n ≤ cells.length) (within : low + n ≤ high) :
    slice cells (low % cells.length) n = (log.drop low).take n := by
  refine List.ext_getElem? fun i => ?_
  unfold slice
  by_cases inside : i < n
  · rw [List.getElem?_take_of_lt inside, List.getElem?_take_of_lt inside, List.getElem?_drop, List.getElem?_drop,
      ← cell_next (by omega), holds (low + i) (by omega) (by omega)]
  · rw [List.getElem?_eq_none, List.getElem?_eq_none]
    all_goals
      rw [List.length_take]
      omega

end Circular
