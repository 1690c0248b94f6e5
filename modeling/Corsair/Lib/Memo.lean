import Corsair.Lib.HashMap

-- A map filled by `entry(key(x)).or_insert_with(|| build(x))`: what is kept under a key
-- was built from the first item that came with it.
namespace Memo

variable {κ α β : Type*} [DecidableEq κ] (key : α → κ) (build : α → β)

def lookup (memo : HashMap κ β) (x : α) : β := (memo.get (key x)).getD (build x)
def insert (memo : HashMap κ β) (x : α) : HashMap κ β := memo.set (key x) (lookup key build memo x)
def first (xs : List α) (k : κ) : Option α := xs.find? (key · = k)

def Holds (xs : List α) (memo : HashMap κ β) : Prop := ∀ k, memo.get k = (first key xs k).map build

variable {key build}

theorem holds_empty : Holds key build [] ∅ := fun _ => rfl

theorem first_snoc (xs : List α) (x : α) (k : κ) :
    first key (xs ++ [x]) k = (first key xs k).or (if key x = k then some x else none) := by
  unfold first
  rw [List.find?_append, List.find?_singleton]
  simp only [decide_eq_true_eq]

theorem lookup_first {xs : List α} {memo : HashMap κ β} (holds : Holds key build xs memo) (x : α) :
    lookup key build memo x = build ((first key xs (key x)).getD x) := by
  unfold lookup
  rw [holds]
  cases first key xs (key x) <;> rfl

theorem holds_insert {xs : List α} {memo : HashMap κ β} (holds : Holds key build xs memo) (x : α) :
    Holds key build (xs ++ [x]) (insert key build memo x) := by
  intro k
  rw [insert, HashMap.get_set, first_snoc]
  by_cases own : k = key x
  · subst own
    rw [if_pos rfl, if_pos rfl, lookup_first holds]
    cases first key xs (key x) <;> rfl
  · rw [if_neg own, if_neg (Ne.symm own), Option.or_none]
    exact holds k

-- An item gets its own value back exactly when the first item of its key had the same.
theorem lookup_own_iff {xs : List α} {memo : HashMap κ β} (holds : Holds key build xs memo) (x : α) :
    lookup key build memo x = build x ↔ ∀ y ∈ first key xs (key x), build y = build x := by
  rw [lookup_first holds]
  cases first key xs (key x) <;> simp

end Memo
