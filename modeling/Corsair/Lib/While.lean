import Mathlib.Data.Nat.Init

-- A while loop: as long as `go` allows, the body runs again.
namespace While

variable {σ : Type*} (go : σ → Bool) (body : σ → σ)

def run : ℕ → σ → Option σ
  | 0, _ => none
  | fuel + 1, s => if go s then run fuel (body s) else some s

def Ends (s final : σ) : Prop := ∃ fuel, run go body fuel s = some final

variable {go body} {s final : σ}

theorem ends_stop (stops : go s = false) : Ends go body s s :=
  ⟨1, by simp [run, stops]⟩

theorem ends_step (goes : go s = true) (rest : Ends go body (body s) final) : Ends go body s final := by
  obtain ⟨fuel, ended⟩ := rest
  exact ⟨fuel + 1, by simpa [run, goes] using ended⟩

-- An invariant under which the loop always goes on keeps it from ending.
theorem endless (Inv : σ → Prop) (goes : ∀ s, Inv s → go s = true) (kept : ∀ s, Inv s → Inv (body s))
    (start : Inv s) : ¬ ∃ final, Ends go body s final := by
  intro given
  obtain ⟨final, fuel, ended⟩ := given
  induction fuel generalizing s with
  | zero => cases ended
  | succ fuel next =>
    rw [run, if_pos (goes s start)] at ended
    exact next (kept s start) ended

-- A rank that every turn under the invariant lowers makes it end.
theorem ends_of_rank (Inv : σ → Prop) (rank : σ → ℕ) (kept : ∀ s, go s = true → Inv s → Inv (body s))
    (falls : ∀ s, go s = true → Inv s → Inv (body s) → go (body s) = true → rank (body s) < rank s) (start : Inv s) :
    ∃ final, Ends go body s final := by
  induction known : rank s using Nat.strongRecOn generalizing s with
  | ind n next =>
    cases goes : go s with
    | false => exact ⟨s, ends_stop goes⟩
    | true =>
      have held := kept s goes start
      cases again : go (body s) with
      | false => exact ⟨body s, ends_step goes (ends_stop again)⟩
      | true =>
        have lower := falls s goes start held again
        obtain ⟨final, ended⟩ := next (rank (body s)) (known ▸ lower) held rfl
        exact ⟨final, ends_step goes ended⟩

end While
