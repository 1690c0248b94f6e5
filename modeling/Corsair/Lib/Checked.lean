import Mathlib.Algebra.Field.Defs

-- Computations that may fault.
namespace Checked

universe v

variable {ε α : Type*} {σ τ : Type v}

-- A result that, unless it is one of the faults allowed, is as wanted.
def Returns (allowed : ε → Prop) (wanted : σ → Prop) : Except ε σ → Prop
  | .ok s => wanted s
  | .error fault => allowed fault

theorem Returns.bind {allowed : ε → Prop} {wanted : σ → Prop} {goal : τ → Prop} {first : Except ε σ}
    {next : σ → Except ε τ} (given : Returns allowed wanted first)
    (later : ∀ s, wanted s → Returns allowed goal (next s)) : Returns allowed goal (first >>= next) := by
  cases first with
  | error fault => exact given
  | ok s => exact later s given

theorem Returns.mono {allowed : ε → Prop} {wanted goal : σ → Prop} {result : Except ε σ}
    (given : Returns allowed wanted result) (weaker : ∀ s, wanted s → goal s) : Returns allowed goal result := by
  cases result with
  | error fault => exact given
  | ok s => exact weaker s given

-- A loop keeps what each of its steps keeps, with the elements done so far in view.
theorem foldlM_returns {allowed : ε → Prop} {step : σ → α → Except ε σ} (kept : List α → σ → Prop) {all : List α}
    (steps : ∀ done x rest s, all = done ++ x :: rest → kept done s → Returns allowed (kept (done ++ [x])) (step s x))
    {s : σ} (start : kept [] s) : Returns allowed (kept all) (all.foldlM step s) := by
  suffices general : ∀ rest done s, all = done ++ rest → kept done s →
      Returns allowed (kept all) (rest.foldlM step s) from general all [] s rfl start
  intro rest
  induction rest with
  | nil =>
    intro done s whole given
    rw [whole, List.append_nil]
    exact given
  | cons x rest next =>
    intro done s whole given
    rw [List.foldlM_cons]
    apply (steps done x rest s whole given).bind
    intro later stepped
    exact next (done ++ [x]) later (by simpa using whole) stepped

-- A computation that checks some numbers on its way: it faults where one of them fails,
-- and otherwise returns its value.
section Screen

variable (ok : α → Bool) (fault : ε)

def screen (x : α) : Except ε α := if ok x then .ok x else .error fault

def Screened (run : Except ε σ) (checked : List α) (value : σ) : Prop :=
  run = if checked.all ok then .ok value else .error fault

variable {ok fault} {run : Except ε τ} {checked : List α} {value : σ}

theorem Screened.pure {run : Except ε σ} (returns : run = .ok value) : Screened ok fault run [] value := returns

theorem Screened.next {first : Except ε τ} {step : τ → Except ε σ} {x : τ} (returns : first = .ok x)
    (rest : Screened ok fault (step x) checked value) : Screened ok fault (first >>= step) checked value := by
  rw [returns]
  exact rest

theorem Screened.check {α : Type v} {ok : α → Bool} {checked : List α} {x : α} {step : α → Except ε σ}
    (rest : Screened ok fault (step x) checked value) :
    Screened ok fault (screen ok fault x >>= step) (x :: checked) value := by
  unfold Screened screen
  rw [List.all_cons]
  by_cases passes : ok x = true
  · rw [if_pos passes, passes, Bool.true_and]
    exact rest
  · rw [if_neg passes, Bool.eq_false_iff.mpr passes, Bool.false_and, if_neg Bool.false_ne_true]
    rfl

-- Where every number passes, nothing is left of the checks.
theorem Screened.returns {run : Except ε σ} (given : Screened ok fault run checked value) (all : ∀ x, ok x = true) :
    run = .ok value := by
  unfold Screened at given
  rw [given, if_pos]
  exact List.all_eq_true.mpr fun x _ => all x

end Screen

section Division

variable {𝕜 : Type*} [Field 𝕜] [DecidableEq 𝕜]

-- Division that reports a zero divisor.
def div (fault : ε) (x y : 𝕜) : Except ε 𝕜 := if y = 0 then .error fault else .ok (x / y)

theorem div_ok {fault : ε} {y : 𝕜} (nonzero : y ≠ 0) (x : 𝕜) : div fault x y = .ok (x / y) := if_neg nonzero

end Division

end Checked
