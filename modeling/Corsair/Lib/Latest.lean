import Mathlib.Data.List.Sort
import Corsair.Lib.HashMap

-- A map into which each item is written under its key, so that the last one of a key
-- stands, and which is gone through in an order that a rank of the keys gives.
namespace Latest

variable {κ α : Type*} [DecidableEq κ] {key : α → κ}

def last (key : α → κ) (xs : List α) (k : κ) : Option α := xs.reverse.find? (key · = k)

def Tracks (key : α → κ) (xs : List α) (map : HashMap κ α) : Prop := ∀ k, map.get k = last key xs k

theorem tracks_empty : Tracks key [] ∅ := fun _ => rfl

theorem last_concat (xs : List α) (x : α) (k : κ) :
    last key (xs ++ [x]) k = if k = key x then some x else last key xs k := by
  unfold last
  rw [List.reverse_append, List.reverse_singleton, List.singleton_append, List.find?_cons]
  by_cases own : k = key x
  · rw [if_pos own, decide_eq_true own.symm]
  · rw [if_neg own, decide_eq_false (Ne.symm own)]

theorem tracks_set {xs : List α} {map : HashMap κ α} (tracks : Tracks key xs map) (x : α) :
    Tracks key (xs ++ [x]) (map.set (key x) x) := by
  intro k
  rw [HashMap.get_set, last_concat, tracks k]

section Iteration

variable {ν : Type*} {p : κ × ν → Prop} [DecidablePred p] {map : HashMap κ ν}

def iterate (rank : κ → ℕ) (map : HashMap κ ν) : List (κ × ν) :=
  map.items.insertionSort fun a b => rank a.1 ≤ rank b.1

-- The entry of a kind that a loop over the map comes to last.
def final (p : κ × ν → Prop) [DecidablePred p] (rank : κ → ℕ) (map : HashMap κ ν) : Option (κ × ν) :=
  (iterate rank map).reverse.find? p

theorem mem_iterate {rank : κ → ℕ} {k : κ} {value : ν} :
    (k, value) ∈ (iterate rank map).reverse ↔ map.get k = some value := by
  rw [List.mem_reverse, iterate, List.mem_insertionSort]
  exact HashMap.mem_items

omit [DecidableEq κ] in
theorem iterate_sorted (rank : κ → ℕ) :
    (iterate rank map).reverse.Pairwise fun a b => rank b.1 ≤ rank a.1 := by
  have total : Std.Total fun a b : κ × ν => rank a.1 ≤ rank b.1 := ⟨fun a b => le_total (rank a.1) (rank b.1)⟩
  have chains : IsTrans (κ × ν) fun a b => rank a.1 ≤ rank b.1 := ⟨fun _ _ _ => le_trans⟩
  exact List.pairwise_reverse.mpr (List.pairwise_insertionSort _ _)

theorem final_held {rank : κ → ℕ} {k : κ} {value : ν} (found : final p rank map = some (k, value)) :
    map.get k = some value ∧ p (k, value) := by
  unfold final at found
  have meets := List.find?_some found
  exact ⟨mem_iterate.mp (List.mem_of_find?_eq_some found), of_decide_eq_true meets⟩

theorem final_none {rank : κ → ℕ} :
    final p rank map = none ↔ ∀ k value, map.get k = some value → ¬p (k, value) := by
  unfold final
  simp only [List.find?_eq_none, decide_eq_true_eq]
  constructor
  · intro missed k value held
    exact missed (k, value) (mem_iterate.mpr held)
  · intro missed entry member
    exact missed entry.1 entry.2 (mem_iterate.mp member)

-- Any entry of the kind can be the last: in an order that has its key at the end.
theorem exists_final {k : κ} {value : ν} (held : map.get k = some value) (meets : p (k, value)) :
    ∃ rank, final p rank map = some (k, value) := by
  let rank : κ → ℕ := fun other => if other = k then 1 else 0
  have member : (k, value) ∈ (iterate rank map).reverse := mem_iterate.mpr held
  refine ⟨rank, ?_⟩
  cases found : final p rank map with
  | none => exact absurd meets (final_none.mp found k value held)
  | some entry =>
    obtain ⟨-, before, behind, split, missed⟩ := List.find?_eq_some_iff_append.mp found
    have sorted := @iterate_sorted _ _ map rank
    rw [split] at member sorted
    rcases List.mem_append.mp member with earlier | here
    · have unmet := missed (k, value) earlier
      rw [decide_eq_true meets] at unmet
      cases unmet
    · rcases List.mem_cons.mp here with same | later
      · rw [same]
      · have above : rank k ≤ rank entry.1 := (List.pairwise_cons.mp (List.pairwise_append.mp sorted).2.1).1 _ later
        have own : entry.1 = k := by
          by_contra apart
          simp [rank, apart] at above
        obtain ⟨holds, -⟩ := @final_held _ _ _ p _ map rank entry.1 entry.2 found
        rw [own, held] at holds
        exact congrArg some (Prod.ext own (Option.some.inj holds).symm)

end Iteration

end Latest
