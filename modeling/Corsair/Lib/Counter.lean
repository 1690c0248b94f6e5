import Mathlib.Algebra.BigOperators.Group.List.Basic
import Mathlib.Data.List.Induction
import Mathlib.Tactic.Abel

-- One value kept in two ways: by amounts added to it and by overwrites.
namespace Counter

inductive Write (M : Type*) where
  | add (amount : M)
  | set (value : M)

variable {M : Type*}

def isSet : Write M → Bool
  | .add _ => false
  | .set _ => true

theorem last_set (writes : List (Write M)) :
    (∀ w ∈ writes, ¬isSet w) ∨
      ∃ before value later, writes = before ++ .set value :: later ∧ ∀ w ∈ later, ¬isSet w := by
  induction writes using List.reverseRecOn with
  | nil => exact .inl (by simp)
  | append_singleton writes w earlier =>
    cases w with
    | set value => exact .inr ⟨writes, value, [], rfl, by simp⟩
    | add amount =>
      rcases earlier with adds | ⟨before, value, later, split, adds⟩
      · refine .inl fun w member => ?_
        rcases List.mem_append.mp member with old | new
        · exact adds w old
        · rw [List.mem_singleton.mp new]
          simp [isSet]
      · refine .inr ⟨before, value, later ++ [.add amount], by simp [split], fun w member => ?_⟩
        rcases List.mem_append.mp member with old | new
        · exact adds w old
        · rw [List.mem_singleton.mp new]
          simp [isSet]

section Run

variable [AddCommGroup M]

def apply (n : M) : Write M → M
  | .add amount => n + amount
  | .set value => value

def amount : Write M → M
  | .add amount => amount
  | .set _ => 0

def run (n : M) (writes : List (Write M)) : M := writes.foldl apply n
def added (writes : List (Write M)) : M := (writes.map amount).sum

theorem added_append (xs ys : List (Write M)) : added (xs ++ ys) = added xs + added ys := by
  simp [added]

theorem run_adds (n : M) {writes : List (Write M)} (adds : ∀ w ∈ writes, ¬isSet w) :
    run n writes = n + added writes := by
  induction writes generalizing n with
  | nil => simp [run, added]
  | cons w rest next =>
    cases w with
    | set value => exact absurd rfl (adds _ List.mem_cons_self)
    | add amount =>
      have later := next (n + amount) fun w member => adds w (List.mem_cons_of_mem _ member)
      change run (n + amount) rest = n + (amount + added rest)
      rw [later, add_assoc]

theorem run_set (n : M) (before : List (Write M)) (value : M) {later : List (Write M)}
    (adds : ∀ w ∈ later, ¬isSet w) : run n (before ++ .set value :: later) = value + added later := by
  have from_set : run n (before ++ .set value :: later) = run value later := by
    simp [run, apply]
  rw [from_set, run_adds value adds]

-- The value ends at everything added exactly where the last overwrite, if there is
-- one, wrote what had been added by then.
theorem run_counts (n : M) (writes : List (Write M)) :
    run n writes = n + added writes ↔
      ∀ before value later, writes = before ++ .set value :: later → (∀ w ∈ later, ¬isSet w) →
        value = n + added before := by
  have whole : ∀ before value later, writes = before ++ .set value :: later →
      n + added writes = (n + added before) + added later := by
    intro before value later split
    rw [split, added_append, show added (.set value :: later) = 0 + added later from rfl]
    abel
  constructor
  · intro counts before value later split adds
    have total := whole before value later split
    rw [← counts, split, run_set n before value adds] at total
    exact add_right_cancel total
  · intro written
    rcases last_set writes with adds | ⟨before, value, later, split, adds⟩
    · exact run_adds n adds
    · rw [whole before value later split, ← written before value later split adds, split, run_set n before value adds]

end Run

end Counter
