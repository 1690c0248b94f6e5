import Mathlib.Order.Lattice

-- A fold that keeps the worse of what it has and what it sees, by a score.
namespace Worst

variable {α β : Type*} [LinearOrder β] (score : α → β)

def keep (worst x : α) : α := if score worst < score x then x else worst

theorem lt_keep (limit : β) (worst x : α) :
    limit < score (keep score worst x) ↔ limit < score worst ∨ limit < score x := by
  unfold keep
  split
  · rename_i less
    constructor
    · exact .inr
    · intro given
      rcases given with below | seen
      · exact lt_trans below less
      · exact seen
  · rename_i notLess
    constructor
    · exact .inl
    · intro given
      rcases given with below | seen
      · exact below
      · exact lt_of_lt_of_le seen (not_lt.mp notLess)

theorem lt_fold (limit : β) (xs : List α) (worst : α) :
    limit < score (xs.foldl (keep score) worst) ↔ limit < score worst ∨ ∃ x ∈ xs, limit < score x := by
  induction xs generalizing worst with
  | nil => simp
  | cons x rest next =>
    rw [List.foldl_cons, next, lt_keep]
    simp [or_assoc]

theorem fold_mem (xs : List α) (worst : α) : xs.foldl (keep score) worst ∈ worst :: xs := by
  induction xs generalizing worst with
  | nil => simp
  | cons x rest next =>
    have kept := next (keep score worst x)
    rw [List.foldl_cons]
    rcases List.mem_cons.mp kept with own | later
    · rw [own]
      unfold keep
      split <;> simp
    · exact List.mem_cons_of_mem _ (List.mem_cons_of_mem _ later)

end Worst
