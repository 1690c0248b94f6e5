import Mathlib.Data.List.Basic

-- A line of messages in which nothing that hits comes before a fence.
namespace Fence

variable {α : Type*} (fence hit : α → Prop)

def Fenced : List α → Prop
  | [] => True
  | x :: rest => fence x ∨ ¬hit x ∧ Fenced rest

variable {fence hit}

theorem fenced_tail {x : α} {rest : List α} (fenced : Fenced fence hit (x :: rest)) (plain : ¬fence x) :
    ¬hit x ∧ Fenced fence hit rest :=
  fenced.resolve_left plain

theorem fenced_clear {xs : List α} (clear : ∀ x ∈ xs, ¬hit x) : Fenced fence hit xs := by
  induction xs with
  | nil => trivial
  | cons x rest next =>
    right
    refine ⟨clear x List.mem_cons_self, next ?_⟩
    intro y member
    exact clear y (List.mem_cons_of_mem _ member)

theorem fenced_append (xs ys : List α) :
    Fenced fence hit (xs ++ ys) ↔ Fenced fence hit xs ∧ ((∃ x ∈ xs, fence x) ∨ Fenced fence hit ys) := by
  induction xs with
  | nil => simp [Fenced]
  | cons x rest next =>
    by_cases stops : fence x
    · simp [Fenced, stops]
    · simp [Fenced, stops, next, and_assoc]

theorem fenced_hit {xs : List α} (fenced : Fenced fence hit xs) {x : α} (member : x ∈ xs) (hits : hit x) :
    ∃ y ∈ xs, fence y := by
  induction xs with
  | nil => cases member
  | cons first rest next =>
    rcases fenced with stops | ⟨misses, behind⟩
    · exact ⟨first, List.mem_cons_self, stops⟩
    · rcases List.mem_cons.mp member with rfl | later
      · exact absurd hits misses
      · obtain ⟨y, held, stops⟩ := next behind later
        exact ⟨y, List.mem_cons_of_mem _ held, stops⟩

end Fence
