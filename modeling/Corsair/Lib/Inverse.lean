import Mathlib.Logic.Function.Basic

-- Two partial maps that undo each other, one an index into the other.
def PartialInverse {κ ι : Type*} (f : κ → Option ι) (g : ι → Option κ) : Prop := ∀ k i, g i = some k ↔ f k = some i

namespace PartialInverse

variable {κ ι : Type*}

theorem empty : PartialInverse (fun _ : κ => (none : Option ι)) fun _ => none :=
  fun _ _ => ⟨fun given => absurd given (Option.some_ne_none _).symm, fun given => absurd given (Option.some_ne_none _).symm⟩

section Linked

variable [DecidableEq κ] [DecidableEq ι] {f : κ → Option ι} {g : ι → Option κ}

theorem unlink (inverse : PartialInverse f g) {k : κ} {i : ι} (linked : f k = some i) :
    PartialInverse (Function.update f k none) (Function.update g i none) := by
  intro other id
  have back := (inverse k i).mpr linked
  by_cases key : other = k
  · subst key
    rw [Function.update_self]
    refine ⟨fun given => ?_, fun given => absurd given (Option.some_ne_none _).symm⟩
    by_cases own : id = i
    · subst own
      rw [Function.update_self] at given
      cases given
    · rw [Function.update_of_ne own, inverse, linked] at given
      exact absurd (Option.some.inj given).symm own
  · rw [Function.update_of_ne key]
    by_cases own : id = i
    · subst own
      rw [Function.update_self]
      refine ⟨fun given => absurd given (Option.some_ne_none _).symm, fun given => ?_⟩
      rw [← inverse, back] at given
      exact absurd (Option.some.inj given).symm key
    · rw [Function.update_of_ne own]
      exact inverse other id

-- A new link keeps the two inverse exactly if it takes nothing from another.
theorem link_iff (inverse : PartialInverse f g) (k : κ) (i : ι) :
    PartialInverse (Function.update f k (some i)) (Function.update g i (some k)) ↔
      (∀ other, f k = some other → other = i) ∧ ∀ other, f other = some i → other = k := by
  constructor
  · intro linked
    constructor
    · intro other had
      by_contra lost
      have stale := linked k other
      rw [Function.update_of_ne lost, Function.update_self, (inverse k other).mpr had] at stale
      exact lost (Option.some.inj (stale.mp rfl)).symm
    · intro other had
      by_contra lost
      have stale := linked other i
      rw [Function.update_of_ne lost, Function.update_self, had] at stale
      exact lost (Option.some.inj (stale.mpr rfl)).symm
  · intro fresh
    obtain ⟨own, only⟩ := fresh
    intro other id
    by_cases key : other = k
    · subst key
      rw [Function.update_self]
      by_cases same : id = i
      · subst same
        simp
      · rw [Function.update_of_ne same, inverse]
        exact ⟨fun given => absurd (own id given) same, fun given => absurd (Option.some.inj given).symm same⟩
    · rw [Function.update_of_ne key]
      by_cases same : id = i
      · subst same
        rw [Function.update_self]
        exact ⟨fun given => absurd (Option.some.inj given).symm key, fun given => absurd (only other given) key⟩
      · rw [Function.update_of_ne same]
        exact inverse other id

end Linked

end PartialInverse
