import Corsair.Lib.Checked
import Corsair.Lib.Elimination
import Corsair.Lib.Numeral
import Corsair.Lib.Register
import Corsair.Lib.Worst
import Mathlib.Algebra.Order.Field.Basic
import Mathlib.Algebra.Order.Group.Unbundled.Abs
import Mathlib.Algebra.Order.Field.Rat
import Mathlib.Data.List.FinRange

namespace Corsair.Calibrate

variable {𝕜 : Type*} [Field 𝕜] [LinearOrder 𝕜] {n : ℕ}

-- calibrate.rs; `singular` is the solver's `false`.
inductive Halt where
  | singular
  | divisionByZero

structure System (n : ℕ) (𝕜 : Type*) where
  a : Fin n → Fin n → 𝕜
  b : Fin n → 𝕜

-- (k + 1)..n
def after (k : Fin n) : List (Fin n) := (List.finRange n).filter (k < ·)

def pivot (a : Fin n → Fin n → 𝕜) (k : Fin n) : Fin n × 𝕜 :=
  ((after k).map fun i => (i, |a i k|)).foldl (Worst.keep Prod.snd) (k, |a k k|)

def System.swap (sys : System n 𝕜) (p q : Fin n) : System n 𝕜 :=
  ⟨fun i => sys.a (Equiv.swap p q i), fun i => sys.b (Equiv.swap p q i)⟩

def eliminateRow (k : Fin n) (sys : System n 𝕜) (i : Fin n) : Except Halt (System n 𝕜) := do
  let factor ← Checked.div .divisionByZero (sys.a i k) (sys.a k k)
  return {
    a := Function.update sys.a i fun j => if k ≤ j then sys.a i j - factor * sys.a k j else sys.a i j
    b := Function.update sys.b i (sys.b i - factor * sys.b k) }

def eliminate (sys : System n 𝕜) (k : Fin n) : Except Halt (System n 𝕜) :=
  let ⟨piv, pivVal⟩ := pivot sys.a k
  if pivVal < 1/10^14 then .error .singular
  else (after k).foldlM (eliminateRow k) (if piv ≠ k then sys.swap piv k else sys)

def backSubstitute (a : Fin n → Fin n → 𝕜) (b : Fin n → 𝕜) (i : Fin n) : Except Halt (Fin n → 𝕜) := do
  let s := (after i).foldl (fun s j => s - a i j * b j) (b i)
  let x ← Checked.div .divisionByZero s (a i i)
  return Function.update b i x

def solveLinear (a : Fin n → Fin n → 𝕜) (b : Fin n → 𝕜) : Except Halt (Fin n → 𝕜) := do
  let sys ← (List.finRange n).foldlM eliminate ⟨a, b⟩
  (List.finRange n).reverse.foldlM (backSubstitute sys.a) sys.b

section Order

theorem mem_after {k i : Fin n} : i ∈ after k ↔ k < i := by simp [after]

-- Of a list in order, what comes before one of its elements.
theorem mem_before {α : Type*} {r : α → α → Prop} (asymm : ∀ {a b}, r a b → ¬r b a) {done rest : List α} {j k : α}
    (sorted : (done ++ k :: rest).Pairwise r) (member : j ∈ done ++ k :: rest) : j ∈ done ↔ r j k := by
  rw [List.pairwise_append, List.pairwise_cons] at sorted
  obtain ⟨_, ⟨later, _⟩, earlier⟩ := sorted
  constructor
  · intro member
    exact earlier j member k List.mem_cons_self
  · intro less
    rcases List.mem_append.mp member with member | member
    · exact member
    · rcases List.mem_cons.mp member with own | member
      · subst own
        exact absurd less (asymm less)
      · exact absurd (later j member) (asymm less)

theorem before {done rest : List (Fin n)} {k : Fin n} (whole : List.finRange n = done ++ k :: rest) (j : Fin n) :
    j ∈ done ↔ j < k := by
  have sorted := List.pairwise_lt_finRange n
  have member := List.mem_finRange j
  rw [whole] at sorted member
  exact mem_before (fun less => less.not_gt) sorted member

theorem before_reversed {done rest : List (Fin n)} {k : Fin n} (whole : (List.finRange n).reverse = done ++ k :: rest)
    (j : Fin n) : j ∈ done ↔ k < j := by
  have sorted := List.pairwise_reverse.mpr (List.pairwise_lt_finRange n)
  have member := List.mem_reverse.mpr (List.mem_finRange j)
  rw [whole] at sorted member
  exact mem_before (fun less => less.not_gt) sorted member

omit [LinearOrder 𝕜] in
theorem sum_after (k : Fin n) (f : Fin n → 𝕜) : ((after k).map f).sum = ∑ j with k < j, f j := by
  unfold after
  rw [← List.sum_toFinset f ((List.nodup_finRange n).filter _)]
  congr 1
  ext j
  simp

end Order

-- The pivot is in a row not done yet, and the value tested is its own.
theorem pivot_own (a : Fin n → Fin n → 𝕜) (k : Fin n) :
    k ≤ (pivot a k).1 ∧ (pivot a k).2 = |a (pivot a k).1 k| := by
  have chosen : pivot a k ∈ (k, |a k k|) :: (after k).map fun i => (i, |a i k|) := Worst.fold_mem _ _ _
  rcases List.mem_cons.mp chosen with own | later
  · rw [own]
    exact ⟨le_rfl, rfl⟩
  · obtain ⟨i, below, same⟩ := List.mem_map.mp later
    rw [← same]
    exact ⟨(mem_after.mp below).le, rfl⟩

def System.Solved (sys : System n 𝕜) (x : Fin n → 𝕜) : Prop := Elimination.Solves sys.a sys.b x

-- What elimination keeps: the solutions of the system it started from, and, below the
-- diagonal of the columns done, zeros.
structure Reduced (original : System n 𝕜) (done : List (Fin n)) (sys : System n 𝕜) : Prop where
  solved : ∀ x, sys.Solved x ↔ original.Solved x
  cleared : ∀ j ∈ done, ∀ i, j < i → sys.a i j = 0
  diagonal : ∀ j ∈ done, sys.a j j ≠ 0

omit [LinearOrder 𝕜] in
theorem reduced_swap {original sys : System n 𝕜} {done : List (Fin n)} {k piv : Fin n}
    (given : Reduced original done sys) (early : ∀ j ∈ done, j < k) (below : k ≤ piv) :
    Reduced original done (sys.swap piv k) := by
  have later (j : Fin n) (member : j ∈ done) (i : Fin n) (above : j < i) : j < Equiv.swap piv k i := by
    rw [Equiv.swap_apply_def]
    split
    · exact early j member
    · split
      · exact (early j member).trans_le below
      · exact above
  constructor
  · intro x
    exact (Elimination.solves_permuted (Equiv.swap piv k)).trans (given.solved x)
  · intro j member i above
    exact given.cleared j member _ (later j member i above)
  · intro j member
    have less := early j member
    have fixed : Equiv.swap piv k j = j := Equiv.swap_apply_of_ne_of_ne (less.trans_le below).ne less.ne
    change sys.a (Equiv.swap piv k j) j ≠ 0
    rw [fixed]
    exact given.diagonal j member

-- One row below the pivot: under the columns done the row subtracted is zero, so
-- leaving them out subtracts the whole of it.
theorem eliminateRow_reduced {original sys : System n 𝕜} {done : List (Fin n)} {k i : Fin n}
    (given : Reduced original done sys) (early : ∀ j, j ∈ done ↔ j < k) (pivot : sys.a k k ≠ 0)
    (below : k < i) : ∃ later, eliminateRow k sys i = .ok later ∧ Reduced original done later ∧ later.a k = sys.a k ∧
      later.a i k = 0 ∧ ∀ row, row ≠ i → later.a row = sys.a row := by
  let factor := sys.a i k / sys.a k k
  have whole : (Function.update sys.a i fun j => if k ≤ j then sys.a i j - factor * sys.a k j else sys.a i j) =
      Elimination.subtract sys.a factor k i := by
    unfold Elimination.subtract
    congr 1
    funext j
    split
    · rfl
    · rename_i before
      have done := (early j).mpr (not_le.mp before)
      rw [given.cleared j done k (not_le.mp before), mul_zero, sub_zero]
  have row : Elimination.subtract sys.a factor k i i = fun j => sys.a i j - factor * sys.a k j :=
    Function.update_self ..
  have others (other : Fin n) (distinct : other ≠ i) : Elimination.subtract sys.a factor k i other = sys.a other :=
    Function.update_of_ne distinct ..
  unfold eliminateRow
  rw [Checked.div_ok pivot]
  refine ⟨⟨Elimination.subtract sys.a factor k i, Function.update sys.b i (sys.b i - factor * sys.b k)⟩, ?_, ?_, ?_, ?_,
    others⟩
  · rw [← whole]
    rfl
  · constructor
    · intro x
      exact (Elimination.solves_subtract factor below.ne).trans (given.solved x)
    · intro j member other above
      have less := (early j).mp member
      by_cases own : other = i
      · subst own
        simp only [row, given.cleared j member _ above, given.cleared j member k less, mul_zero, sub_zero]
      · simp only [others other own, given.cleared j member other above]
    · intro j member
      have less := (early j).mp member
      simp only [others j (less.trans below).ne]
      exact given.diagonal j member
  · exact others k below.ne
  · simp only [row, factor]
    rw [div_mul_cancel₀ _ pivot, sub_self]

-- The rows below the pivot one after another: the pivot's own row stays.
theorem eliminateRows_reduced {original sys : System n 𝕜} {done : List (Fin n)} {k : Fin n}
    (given : Reduced original done sys) (early : ∀ j, j ∈ done ↔ j < k) (pivot : sys.a k k ≠ 0) :
    Checked.Returns (· = .singular) (Reduced original (done ++ [k])) ((after k).foldlM (eliminateRow k) sys) := by
  let kept (rows : List (Fin n)) (s : System n 𝕜) : Prop :=
    Reduced original done s ∧ s.a k = sys.a k ∧ ∀ i ∈ rows, s.a i k = 0
  have all : Checked.Returns (· = .singular) (kept (after k)) ((after k).foldlM (eliminateRow k) sys) := by
    apply Checked.foldlM_returns kept
    · intro rows i rest s whole reached
      obtain ⟨reduced, own, zeros⟩ := reached
      have below : k < i := mem_after.mp (whole ▸ List.mem_append_right rows List.mem_cons_self)
      obtain ⟨later, eliminated, still, row, zero, others⟩ :=
        eliminateRow_reduced reduced early (by rw [own]; exact pivot) below
      rw [eliminated]
      refine ⟨still, row.trans own, ?_⟩
      intro other member
      by_cases same : other = i
      · exact same ▸ zero
      · rw [others other same]
        rcases List.mem_append.mp member with before | last
        · exact zeros other before
        · exact absurd (List.mem_singleton.mp last) same
    · exact ⟨given, rfl, by simp⟩
  apply all.mono
  intro s reached
  obtain ⟨reduced, own, zeros⟩ := reached
  constructor
  · exact reduced.solved
  · intro j member i above
    rcases List.mem_append.mp member with before | last
    · exact reduced.cleared j before i above
    · cases List.mem_singleton.mp last
      exact zeros i (mem_after.mpr above)
  · intro j member
    rcases List.mem_append.mp member with before | last
    · exact reduced.diagonal j before
    · cases List.mem_singleton.mp last
      rw [own]
      exact pivot

omit [Field 𝕜] [LinearOrder 𝕜] in
theorem swap_self (sys : System n 𝕜) (k : Fin n) : sys.swap k k = sys := by
  simp [System.swap]

section Ordered

variable [IsStrictOrderedRing 𝕜]

theorem eliminate_reduced {original sys : System n 𝕜} {done : List (Fin n)} {k : Fin n}
    (given : Reduced original done sys) (early : ∀ j, j ∈ done ↔ j < k) :
    Checked.Returns (· = .singular) (Reduced original (done ++ [k])) (eliminate sys k) := by
  obtain ⟨below, value⟩ := pivot_own sys.a k
  unfold eliminate
  simp only
  split
  · rfl
  · rename_i large
    have swapped : (if (pivot sys.a k).1 ≠ k then sys.swap (pivot sys.a k).1 k else sys) =
        sys.swap (pivot sys.a k).1 k := by
      split
      · rfl
      · rename_i same
        rw [not_not.mp same, swap_self]
    rw [swapped]
    apply eliminateRows_reduced (reduced_swap given (fun j => (early j).mp) below) early
    change sys.a (Equiv.swap (pivot sys.a k).1 k k) k ≠ 0
    rw [Equiv.swap_apply_right]
    intro zero
    rw [value, zero, abs_zero] at large
    exact large (by positivity)

-- The diagonal is free of zeros and nothing is left below it.
theorem forward_reduced (a : Fin n → Fin n → 𝕜) (b : Fin n → 𝕜) :
    Checked.Returns (· = .singular) (Reduced ⟨a, b⟩ (List.finRange n)) ((List.finRange n).foldlM eliminate ⟨a, b⟩) := by
  apply Checked.foldlM_returns (Reduced ⟨a, b⟩)
  · intro done k rest sys whole given
    exact eliminate_reduced given (before whole)
  · constructor
    · exact fun _ => Iff.rfl
    · simp
    · simp

end Ordered

section Back

omit [LinearOrder 𝕜] in
theorem foldl_sub (f : Fin n → 𝕜) (xs : List (Fin n)) (s : 𝕜) :
    xs.foldl (fun s j => s - f j) s = s - (xs.map f).sum := by
  induction xs generalizing s with
  | nil => simp
  | cons x rest next => rw [List.foldl_cons, next, List.map_cons, List.sum_cons, sub_sub]

variable {sys : System n 𝕜}

-- What back-substitution keeps: the unknowns found solve their rows, and the rest of
-- the vector is still the right-hand side.
structure Solving (sys : System n 𝕜) (done : List (Fin n)) (b : Fin n → 𝕜) : Prop where
  rows : ∀ i ∈ done, ∑ j, sys.a i j * b j = sys.b i
  rest : ∀ i, i ∉ done → b i = sys.b i

theorem backSubstitute_solving (upper : Elimination.Triangular sys.a) (diagonal : ∀ j, sys.a j j ≠ 0)
    {done : List (Fin n)} {b : Fin n → 𝕜} {i : Fin n} (given : Solving sys done b) (late : ∀ j, j ∈ done ↔ i < j) :
    Checked.Returns (· = .singular) (Solving sys (done ++ [i])) (backSubstitute sys.a b i) := by
  have own : b i = sys.b i := given.rest i fun member => lt_irrefl i ((late i).mp member)
  unfold backSubstitute
  simp only [foldl_sub, own, sum_after, Checked.div_ok (diagonal i)]
  change Solving sys (done ++ [i]) (Function.update b i _)
  constructor
  · intro row member
    apply Elimination.substitute_solves upper (diagonal i)
    · intro below less
      exact given.rows below ((late below).mpr less)
    · rcases List.mem_append.mp member with before | last
      · exact ((late row).mp before).le
      · exact (List.mem_singleton.mp last).ge
  · intro row outside
    obtain ⟨before, other⟩ := not_or.mp (mt List.mem_append.mpr outside)
    rw [Function.update_of_ne fun same => other (List.mem_singleton.mpr same)]
    exact given.rest row before

theorem back_solved (upper : Elimination.Triangular sys.a) (diagonal : ∀ j, sys.a j j ≠ 0) :
    Checked.Returns (· = .singular) sys.Solved ((List.finRange n).reverse.foldlM (backSubstitute sys.a) sys.b) := by
  have all : Checked.Returns (· = .singular) (Solving sys (List.finRange n).reverse)
      ((List.finRange n).reverse.foldlM (backSubstitute sys.a) sys.b) := by
    apply Checked.foldlM_returns (Solving sys)
    · intro done i rest b whole given
      exact backSubstitute_solving upper diagonal given (before_reversed whole)
    · exact ⟨by simp, fun _ _ => rfl⟩
  apply all.mono
  intro x given i
  exact given.rows i (List.mem_reverse.mpr (List.mem_finRange i))

end Back

theorem solveLinear_returns [IsStrictOrderedRing 𝕜] (a : Fin n → Fin n → 𝕜) (b : Fin n → 𝕜) :
    Checked.Returns (· = .singular) (Elimination.Solves a b) (solveLinear a b) := by
  apply (forward_reduced a b).bind
  intro sys reduced
  apply (back_solved _ _).mono
  · intro x solved
    exact (reduced.solved x).mp solved
  · intro i j less
    exact reduced.cleared j (List.mem_finRange j) i less
  · intro j
    exact reduced.diagonal j (List.mem_finRange j)

-- A solution, and no zero divisor on the way to it or to the refusal.
theorem solve_linear_correct [IsStrictOrderedRing 𝕜] (a : Fin n → Fin n → 𝕜) (b : Fin n → 𝕜) :
    (∀ x, solveLinear a b = .ok x → ∀ i, ∑ j, a i j * x j = b i) ∧ solveLinear a b ≠ .error .divisionByZero := by
  have returned := solveLinear_returns a b
  constructor
  · intro x solved
    rw [solved] at returned
    exact returned
  · intro fault
    rw [fault] at returned
    cases returned

theorem solve_linear_correct_swapped :
    (∀ x, solveLinear ![![0, 2], ![3, 1]] ![4, (5 : ℚ)] = .ok x →
      ∀ i, ∑ j, (![![0, 2], ![3, 1]] : Fin 2 → Fin 2 → ℚ) i j * x j = ![4, 5] i) ∧
    solveLinear ![![0, 2], ![3, 1]] ![4, (5 : ℚ)] ≠ .error .divisionByZero :=
  solve_linear_correct _ _

end Corsair.Calibrate
