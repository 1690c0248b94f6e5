import Corsair.Black
import Corsair.Calibrate.LeastSquares
import Mathlib.Data.Fin.VecNotation
import Mathlib.Tactic.FinCases

namespace Corsair.Calibrate

open Black (Elementary)

variable {𝕜 : Type*} [Field 𝕜] [LinearOrder 𝕜]

section Model

variable (fn : Elementary 𝕜)

-- lib.rs
def sabrImpliedVol (f k t alpha beta rho nu : 𝕜) : 𝕜 :=
  if t ≤ 0 ∨ alpha ≤ 0 ∨ f ≤ 0 ∨ k ≤ 0 then if 0 < alpha then alpha else 1/100
  else
    let eps : 𝕜 := 1/10^7
    let p3 := (2 - 3 * rho * rho) * nu * nu / 24
    if |f - k| < eps * f then
      let fmidBeta := fn.powf f (1 - beta)
      let term1 := alpha / fmidBeta
      let p1 := ((1 - beta)^2 / 24) * alpha * alpha / fn.powf f (2 - 2 * beta)
      let p2 := 1/4 * rho * beta * nu * alpha / fmidBeta
      term1 * (1 + (p1 + p2 + p3) * t)
    else
      let fk := f * k
      let fkBeta := fn.powf fk ((1 - beta) / 2)
      let logFk := fn.ln (f / k)
      let z := (nu / alpha) * fkBeta * logFk
      let xz :=
        if |z| < eps then 1
        else
          let sqrtTerm := fn.sqrt (1 - 2 * rho * z + z * z)
          z / fn.ln ((sqrtTerm + z - rho) / (1 - rho))
      let denom1 := fkBeta * (1 + (1 - beta)^2 / 24 * logFk^2 + (1 - beta)^4 / 1920 * logFk^4)
      let p1 := (1 - beta)^2 / 24 * alpha * alpha / fn.powf fk (1 - beta)
      let p2 := 1/4 * rho * beta * nu * alpha / fkBeta
      (alpha / denom1) * xz * (1 + (p1 + p2 + p3) * t)

-- calibrate.rs
structure SabrFit (𝕜 : Type*) where
  alpha : 𝕜
  beta : 𝕜
  rho : 𝕜
  nu : 𝕜
  rmse : 𝕜
  nPoints : ℕ

-- The weights brought to a sum of n; without usable ones every strike counts one.
def normalized (n : ℕ) (weights : Option (List 𝕜)) (i : Fin n) : 𝕜 :=
  match weights with
  | none => 1
  | some weights =>
    if weights.length = n ∧ 0 < weights.sum then weights.getD i 0 * (n / weights.sum) else 1

def atmIdx (f : 𝕜) (strikes : List 𝕜) : ℕ :=
  let distance (i : ℕ) : 𝕜 := |strikes.getD i 0 - f|
  ((List.range' 1 (strikes.length - 1)).foldl
    (fun best i => if distance i < best.2 then (i, distance i) else best) (0, distance 0)).1

variable (f t : 𝕜) (strikes marketIvs : List 𝕜) (weights : Option (List 𝕜)) (beta : 𝕜)

def alpha0 : 𝕜 := max (marketIvs.getD (atmIdx f strikes) 0 * fn.powf f (1 - beta)) (1/1000)

def lowerBounds : Fin 3 → 𝕜 := ![1/10000, -999/1000, 1/10000]

def upperBounds : Fin 3 → 𝕜 := ![max 10 (alpha0 fn f strikes marketIvs beta * 5), 999/1000, 5]

def initialGuesses : List (Fin 3 → 𝕜) :=
  let alpha := alpha0 fn f strikes marketIvs beta
  [![alpha, -3/10, 3/10], ![alpha, -5/10, 5/10], ![alpha, 0, 2/10], ![alpha * (8/10), -2/10, 4/10]]

def residual (p : Fin 3 → 𝕜) (i : Fin strikes.length) : 𝕜 :=
  (sabrImpliedVol fn f (strikes.get i) t (p 0) beta (p 1) (p 2) - marketIvs.getD i 0) *
    normalized strikes.length weights i

def fitFrom (guess : Fin 3 → 𝕜) : Except Halt (LMResult 3 strikes.length 𝕜) :=
  lmSolve fn.sqrt (residual fn f t strikes marketIvs weights beta) lowerBounds
    (upperBounds fn f strikes marketIvs beta) 200 guess

def better {n m : ℕ} (best : Option (LMResult n m 𝕜)) (res : LMResult n m 𝕜) : Option (LMResult n m 𝕜) :=
  match best with
  | none => some res
  | some b => if res.cost < b.cost then some res else some b

def meanSquare {m : ℕ} (r : Fin m → 𝕜) : 𝕜 := (∑ i, r i * r i) / m

def calibrateSabr (maxRmse : 𝕜) : Except Halt (Option (SabrFit 𝕜)) :=
  let n := strikes.length
  if n < 3 ∨ marketIvs.length ≠ n ∨ t ≤ 0 ∨ f ≤ 0 then .ok none
  else do
    let best ← (initialGuesses fn f strikes marketIvs beta).foldlM
      (fun best guess => return better best (← fitFrom fn f t strikes marketIvs weights beta guess)) none
    match best with
    | none => return none
    | some best =>
      let rmse := fn.sqrt (meanSquare best.residuals)
      if rmse > maxRmse then return none
      else return some ⟨best.x 0, beta, best.x 1, best.x 2, rmse, n⟩

end Model

-- The cheapest of the results so far, and one of them.
structure Best {n m : ℕ} (solve : (Fin n → 𝕜) → Except Halt (LMResult n m 𝕜)) (done : List (Fin n → 𝕜))
    (b : LMResult n m 𝕜) : Prop where
  own : ∃ guess ∈ done, solve guess = .ok b
  least : ∀ guess ∈ done, ∃ res, solve guess = .ok res ∧ b.cost ≤ res.cost

omit [Field 𝕜] in
theorem better_best {n m : ℕ} {solve : (Fin n → 𝕜) → Except Halt (LMResult n m 𝕜)} {done : List (Fin n → 𝕜)}
    {best : Option (LMResult n m 𝕜)} (none : best = none → done = []) (some : ∀ b, best = some b → Best solve done b)
    {guess : Fin n → 𝕜} {res : LMResult n m 𝕜} (solved : solve guess = .ok res) :
    ∃ b, better best res = Option.some b ∧ Best solve (done ++ [guess]) b := by
  have last : guess ∈ done ++ [guess] := List.mem_append_right done List.mem_cons_self
  cases best with
  | none =>
    refine ⟨res, rfl, ⟨guess, last, solved⟩, ?_⟩
    intro other member
    rw [none rfl, List.nil_append, List.mem_singleton] at member
    exact ⟨res, member ▸ solved, le_rfl⟩
  | some b =>
    obtain ⟨own, least⟩ := some b rfl
    by_cases less : res.cost < b.cost
    · refine ⟨res, if_pos less, ⟨guess, last, solved⟩, ?_⟩
      intro other member
      rcases List.mem_append.mp member with before | now
      · obtain ⟨found, reached, kept⟩ := least other before
        exact ⟨found, reached, less.le.trans kept⟩
      · exact ⟨res, List.mem_singleton.mp now ▸ solved, le_rfl⟩
    · obtain ⟨first, before, reached⟩ := own
      refine ⟨b, if_neg less, ⟨first, List.mem_append_left _ before, reached⟩, ?_⟩
      intro other member
      rcases List.mem_append.mp member with before | now
      · exact least other before
      · exact ⟨res, List.mem_singleton.mp now ▸ solved, not_lt.mp less⟩

omit [Field 𝕜] in
theorem foldlM_best {n m : ℕ} {solve : (Fin n → 𝕜) → Except Halt (LMResult n m 𝕜)} (guesses : List (Fin n → 𝕜))
    (solved : ∀ guess, ∃ res, solve guess = .ok res) :
    ∃ best, guesses.foldlM (fun best guess => return better best (← solve guess)) none = .ok best ∧
      (best = none → guesses = []) ∧ ∀ b, best = some b → Best solve guesses b := by
  let kept (done : List (Fin n → 𝕜)) (best : Option (LMResult n m 𝕜)) : Prop :=
    (best = none → done = []) ∧ ∀ b, best = some b → Best solve done b
  have returned : Checked.Returns (fun _ => False) (kept guesses)
      (guesses.foldlM (fun best guess => return better best (← solve guess)) none) := by
    apply Checked.foldlM_returns kept
    · intro done guess rest best _ given
      obtain ⟨res, found⟩ := solved guess
      obtain ⟨b, chosen, still⟩ := better_best given.1 given.2 found
      rw [found]
      change kept (done ++ [guess]) (better best res)
      rw [chosen]
      constructor
      · intro absent
        cases absent
      · intro other same
        cases same
        exact still
    · constructor
      · exact fun _ => rfl
      · intro b absent
        cases absent
  cases result : guesses.foldlM (fun best guess => return better best (← solve guess)) none with
  | error fault =>
    rw [result] at returned
    exact returned.elim
  | ok best =>
    rw [result] at returned
    exact ⟨best, rfl, returned⟩

section Sound

variable (fn : Elementary 𝕜) (f t : 𝕜) (strikes marketIvs : List 𝕜) (weights : Option (List 𝕜)) (beta : 𝕜)

def SabrFit.params (fit : SabrFit 𝕜) : Fin 3 → 𝕜 := ![fit.alpha, fit.rho, fit.nu]

-- What a fit that is returned promises of its parameters.
structure Calibrated (maxRmse : 𝕜) (fit : SabrFit 𝕜) : Prop where
  alpha : 1/10000 ≤ fit.alpha ∧ fit.alpha ≤ max 10 (alpha0 fn f strikes marketIvs beta * 5)
  rho : -999/1000 ≤ fit.rho ∧ fit.rho ≤ 999/1000
  nu : 1/10000 ≤ fit.nu ∧ fit.nu ≤ 5
  rmse : fit.rmse = fn.sqrt (meanSquare (residual fn f t strikes marketIvs weights beta fit.params))
  close : fit.rmse ≤ maxRmse
  least : ∀ guess ∈ initialGuesses fn f strikes marketIvs beta,
    ∃ res, fitFrom fn f t strikes marketIvs weights beta guess = .ok res ∧
      cost (residual fn f t strikes marketIvs weights beta fit.params) ≤ res.cost
  own : fit.beta = beta ∧ fit.nPoints = strikes.length

section Ordered

variable [IsStrictOrderedRing 𝕜]

theorem bounds_ordered (i : Fin 3) : lowerBounds i ≤ upperBounds fn f strikes marketIvs beta i := by
  have ten : (1/10000 : 𝕜) ≤ max 10 (alpha0 fn f strikes marketIvs beta * 5) :=
    le_max_of_le_left (by norm_num)
  fin_cases i
  · exact ten
  · change (-999/1000 : 𝕜) ≤ 999/1000
    norm_num
  · change (1/10000 : 𝕜) ≤ 5
    norm_num

theorem calibrateSabr_calibrated (maxRmse : 𝕜) :
    ∃ out, calibrateSabr fn f t strikes marketIvs weights beta maxRmse = .ok out ∧
      ∀ fit, out = some fit → Calibrated fn f t strikes marketIvs weights beta maxRmse fit := by
  have solution := lmSolve_solution fn.sqrt (residual fn f t strikes marketIvs weights beta)
    (bounds_ordered fn f strikes marketIvs beta) 200
  obtain ⟨best, folded, _, chosen⟩ := foldlM_best (initialGuesses fn f strikes marketIvs beta)
    (fun guess => (solution guess).imp fun _ => And.left)
  unfold calibrateSabr
  simp only
  split
  · exact ⟨none, rfl, by simp⟩
  · change ∃ out, (_ >>= _) = Except.ok out ∧ _
    unfold fitFrom
    rw [folded]
    cases best with
    | none => exact ⟨none, rfl, by simp⟩
    | some best =>
      by_cases loose : fn.sqrt (meanSquare best.residuals) > maxRmse
      · exact ⟨none, if_pos loose, by simp⟩
      · refine ⟨some ⟨best.x 0, beta, best.x 1, best.x 2, fn.sqrt (meanSquare best.residuals), strikes.length⟩,
          if_neg loose, ?_⟩
        intro fit same
        cases same
        obtain ⟨own, least⟩ := chosen best rfl
        obtain ⟨guess, _, reached⟩ := own
        obtain ⟨res, solved, sound⟩ := solution guess
        cases solved.symm.trans reached
        have params : ![best.x 0, best.x 1, best.x 2] = best.x := by
          funext i
          fin_cases i <;> rfl
        constructor
        · exact sound.within 0
        · exact sound.within 1
        · exact sound.within 2
        · simp only [SabrFit.params, params, sound.residuals]
        · exact not_lt.mp loose
        · simp only [SabrFit.params, params, ← sound.residuals, ← sound.cost]
          exact least
        · exact ⟨rfl, rfl⟩

end Ordered

end Sound

-- Any solution of lm_solve, and what calibrate_sabr makes of four of them.
theorem calibration_consistent [IsStrictOrderedRing 𝕜] (fn : Elementary 𝕜) :
    (∀ (n m : ℕ) (f : (Fin n → 𝕜) → Fin m → 𝕜) (x0 lb ub : Fin n → 𝕜) (maxNfev : ℕ), (∀ i, lb i ≤ ub i) →
      ∃ res, lmSolve fn.sqrt f lb ub maxNfev x0 = .ok res ∧ Solution f x0 lb ub res) ∧
    ∀ f t strikes marketIvs weights beta maxRmse,
      ∃ out, calibrateSabr fn f t strikes marketIvs weights beta maxRmse = .ok out ∧
        ∀ fit, out = some fit → Calibrated fn f t strikes marketIvs weights beta maxRmse fit := by
  constructor
  · intro n m f x0 lb ub maxNfev ordered
    exact lmSolve_solution fn.sqrt f ordered maxNfev x0
  · intro f t strikes marketIvs weights beta maxRmse
    exact calibrateSabr_calibrated fn f t strikes marketIvs weights beta maxRmse

-- Square roots of rational squares, and powers of one; nothing else is asked of the
-- functions where every strike is at the money.
def atTheMoney : Elementary ℚ where
  ln _ := 0
  exp _ := 1
  sqrt x := Nat.sqrt x.num.toNat / Nat.sqrt x.den
  powf _ _ := 1
  normCdf _ := 1/2
  isFinite _ := true

theorem calibration_consistent_atTheMoney :
    (∃ res, lmSolve atTheMoney.sqrt (fun x : Fin 1 → ℚ => fun _ : Fin 2 => x 0 - 3) (fun _ => 0) (fun _ => 2) 200
      (fun _ => 1) = .ok res ∧
      Solution (fun x : Fin 1 → ℚ => fun _ : Fin 2 => x 0 - 3) (fun _ => 1) (fun _ => 0) (fun _ => 2) res) ∧
    ∃ out, calibrateSabr atTheMoney 1 (1/10) [1, 1, 1] [4/10, 4/10, 4/10] none (1/2) (1/20) = .ok out ∧
      ∀ fit, out = some fit →
        Calibrated atTheMoney 1 (1/10) [1, 1, 1] [4/10, 4/10, 4/10] none (1/2) (1/20) fit :=
  ⟨(calibration_consistent atTheMoney).1 1 2 _ _ _ _ 200 (fun _ => by norm_num),
    (calibration_consistent atTheMoney).2 _ _ _ _ _ _ _⟩

end Corsair.Calibrate
