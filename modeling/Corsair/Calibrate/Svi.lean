import Corsair.Calibrate.Sabr
import Corsair.Sabr.Rejected
import Mathlib.Data.List.Sort

namespace Corsair.Calibrate

open Black (Elementary)
open Sabr (realFunctions)

section Model

variable {𝕜 : Type*} [Field 𝕜] [LinearOrder 𝕜] (fn : Elementary 𝕜)

-- lib.rs
def sviTotalVarianceInner (k a b rho m sigma : 𝕜) : 𝕜 :=
  let dk := k - m
  a + b * (rho * dk + fn.sqrt (dk * dk + sigma * sigma))

def sviImpliedVol (f kStrike t a b rho m sigma : 𝕜) : 𝕜 :=
  if t ≤ 0 ∨ kStrike ≤ 0 ∨ f ≤ 0 then 0
  else
    let k := fn.ln (kStrike / f)
    let w := sviTotalVarianceInner fn k a b rho m sigma
    if w ≤ 0 then 1/1000 else fn.sqrt (w / t)

-- calibrate.rs
structure SviFit (𝕜 : Type*) where
  a : 𝕜
  b : 𝕜
  rho : 𝕜
  m : 𝕜
  sigma : 𝕜
  rmse : 𝕜
  nPoints : ℕ

-- The sort unwraps the comparison of two logarithms, and a negative strike has none.
inductive SviFault where
  | solver (halt : Halt)
  | incomparable

-- The segments after a point, up to the first that ends past x.
def segment (x : 𝕜) : 𝕜 × 𝕜 → List (𝕜 × 𝕜) → Except Halt 𝕜
  | last, [] => .ok last.2
  | p, q :: rest =>
    if x ≤ q.1 then do
      let t ← Checked.div .divisionByZero (x - p.1) (q.1 - p.1)
      return p.2 + t * (q.2 - p.2)
    else segment x q rest

def interp1 (p : 𝕜 × 𝕜) (rest : List (𝕜 × 𝕜)) (x : 𝕜) : Except Halt 𝕜 :=
  let last := rest.getLastD p
  if x ≤ p.1 then .ok p.2
  else if last.1 ≤ x then .ok last.2
  else segment x p rest

variable (f t : 𝕜) (strikes marketIvs : List 𝕜) (weights : Option (List 𝕜))

def logMoneyness : List 𝕜 := strikes.map fun k => fn.ln (k / f)

def variances : List 𝕜 := marketIvs.map fun iv => iv * iv * t

-- `sort_by` keeps equal keys in their order.
def chain : List (𝕜 × 𝕜) := ((logMoneyness fn f strikes).zip (variances t marketIvs)).insertionSort (·.1 ≤ ·.1)

def atmVar : Except Halt 𝕜 :=
  match chain fn f t strikes marketIvs with
  | [] => .ok 0
  | p :: rest => interp1 p rest 0

def sviGuesses (atmVar : 𝕜) : List (Fin 5 → 𝕜) :=
  [![atmVar, 1/10, -3/10, 0, 1/10], ![atmVar, 2/10, -5/10, 0, 5/100],
    ![atmVar * (8/10), 15/100, -2/10, -5/100, 15/100], ![atmVar, 5/100, -4/10, 2/100, 8/100],
    ![atmVar, 1/10, -7/10, -1/10, 3/10], ![atmVar * (5/10), 15/100, -6/10, -5/100, 5/10],
    ![atmVar, 8/100, -8/10, -15/100, 4/10], ![atmVar * (3/10), 2/10, -5/10, 0, 6/10]]

def sviLowerBounds : Fin 5 → 𝕜 := ![0, 1/10000, -999/1000, -1, 1/10000]

def sviUpperBounds : Fin 5 → 𝕜 := ![5, 5, 999/1000, 1, 2]

def sviResidual (p : Fin 5 → 𝕜) (i : Fin strikes.length) : 𝕜 :=
  let w := sviTotalVarianceInner fn (fn.ln (strikes.get i / f)) (p 0) (p 1) (p 2) (p 3) (p 4)
  (fn.sqrt (max w (1/10^10) / t) - marketIvs.getD i 0) * normalized strikes.length weights i

def sviFitFrom (guess : Fin 5 → 𝕜) : Except Halt (LMResult 5 strikes.length 𝕜) :=
  lmSolve fn.sqrt (sviResidual fn f t strikes marketIvs weights) sviLowerBounds sviUpperBounds 500 guess

def SviFit.variance (fit : SviFit 𝕜) (k : 𝕜) : 𝕜 := sviTotalVarianceInner fn k fit.a fit.b fit.rho fit.m fit.sigma

def calibrateSvi (maxRmse : 𝕜) : Except SviFault (Option (SviFit 𝕜)) :=
  let n := strikes.length
  if n < 5 ∨ marketIvs.length ≠ n ∨ t ≤ 0 ∨ f ≤ 0 then .ok none
  else if strikes.any (· < 0) then .error .incomparable
  else Except.mapError .solver do
    let start ← atmVar fn f t strikes marketIvs
    let best ← (sviGuesses start).foldlM
      (fun best guess => return better best (← sviFitFrom fn f t strikes marketIvs weights guess)) none
    match best with
    | none => return none
    | some best =>
      let rmse := fn.sqrt (meanSquare best.residuals)
      if rmse > maxRmse then return none
      else
        let fit : SviFit 𝕜 := ⟨best.x 0, best.x 1, best.x 2, best.x 3, best.x 4, rmse, n⟩
        if (logMoneyness fn f strikes).any (fit.variance fn · < 0) then return none
        else return some fit

end Model

-- The points of a chain sorted by their first component hold the interpolation together: a
-- segment that is entered ends past where it starts.
theorem segment_ok {𝕜 : Type*} [Field 𝕜] [LinearOrder 𝕜] {x : 𝕜} (rest : List (𝕜 × 𝕜)) {p : 𝕜 × 𝕜}
    (after : p.1 < x) : ∃ y, segment x p rest = .ok y := by
  induction rest generalizing p with
  | nil => exact ⟨p.2, rfl⟩
  | cons q rest next =>
    unfold segment
    by_cases inside : x ≤ q.1
    · have apart : q.1 - p.1 ≠ 0 := sub_ne_zero.mpr (after.trans_le inside).ne'
      rw [if_pos inside, Checked.div_ok apart]
      exact ⟨_, rfl⟩
    · rw [if_neg inside]
      exact next (not_le.mp inside)

theorem interp1_ok {𝕜 : Type*} [Field 𝕜] [LinearOrder 𝕜] (p : 𝕜 × 𝕜) (rest : List (𝕜 × 𝕜)) (x : 𝕜) :
    ∃ y, interp1 p rest x = .ok y := by
  unfold interp1
  by_cases before : x ≤ p.1
  · exact ⟨p.2, if_pos before⟩
  · simp only [if_neg before]
    split
    · exact ⟨_, rfl⟩
    · exact segment_ok rest (not_le.mp before)

theorem atmVar_ok {𝕜 : Type*} [Field 𝕜] [LinearOrder 𝕜] (fn : Elementary 𝕜) (f t : 𝕜) (strikes marketIvs : List 𝕜) :
    ∃ start, atmVar fn f t strikes marketIvs = .ok start := by
  unfold atmVar
  cases chain fn f t strikes marketIvs with
  | nil => exact ⟨0, rfl⟩
  | cons p rest => exact interp1_ok p rest 0

section Hyperbola

variable {rho sigma s : ℝ}

-- The branch of a hyperbola that a smile is: the lowest point, and where it lies.
theorem hyperbola_least (root : s * s = 1 - rho * rho) (d : ℝ) :
    sigma * s ≤ rho * d + √(d * d + sigma * sigma) := by
  have square : (sigma * s - rho * d) ^ 2 ≤ d * d + sigma * sigma := by
    have whole : d * d + sigma * sigma - (sigma * s - rho * d) ^ 2 = (d * s + sigma * rho) ^ 2 := by
      linear_combination (-(d * d) - sigma * sigma) * root
    have kept := sq_nonneg (d * s + sigma * rho)
    linarith
  have bounded := Real.le_sqrt_of_sq_le square
  linarith

theorem hyperbola_reached (root : s * s = 1 - rho * rho) (positive : 0 < s) (width : 0 ≤ sigma) :
    rho * -(rho * sigma / s) + √(-(rho * sigma / s) * -(rho * sigma / s) + sigma * sigma) = sigma * s := by
  have square : -(rho * sigma / s) * -(rho * sigma / s) + sigma * sigma = (sigma / s) * (sigma / s) := by
    field_simp
    linear_combination sigma ^ 2 * root
  rw [square, Real.sqrt_mul_self (div_nonneg width positive.le)]
  field_simp
  linear_combination (-sigma) * root

end Hyperbola

theorem sviBounds_ordered (i : Fin 5) : (sviLowerBounds i : ℝ) ≤ sviUpperBounds i := by
  fin_cases i
  · change (0 : ℝ) ≤ 5
    norm_num
  · change (1/10000 : ℝ) ≤ 5
    norm_num
  · change (-999/1000 : ℝ) ≤ 999/1000
    norm_num
  · change (-1 : ℝ) ≤ 1
    norm_num
  · change (1/10000 : ℝ) ≤ 2
    norm_num

def SviFit.params {𝕜 : Type*} (fit : SviFit 𝕜) : Fin 5 → 𝕜 := ![fit.a, fit.b, fit.rho, fit.m, fit.sigma]

-- The total variance at the bottom of the smile.
noncomputable def SviFit.bottom (fit : SviFit ℝ) : ℝ :=
  fit.a + fit.b * (fit.sigma * √(1 - fit.rho * fit.rho))

-- A smile that prices: nowhere without variance, so that every vol read from it is its own.
structure Smile (fit : SviFit ℝ) : Prop where
  least : IsLeast (Set.range (fit.variance realFunctions)) fit.bottom
  positive : 0 < fit.bottom
  vol : ∀ f k t, 0 < f → 0 < k → 0 < t →
    0 < sviImpliedVol realFunctions f k t fit.a fit.b fit.rho fit.m fit.sigma ∧
      sviImpliedVol realFunctions f k t fit.a fit.b fit.rho fit.m fit.sigma ^ 2 * t =
        fit.variance realFunctions (Real.log (k / f))

theorem variance_bottom {fit : SviFit ℝ} (slope : 0 < 1 - fit.rho * fit.rho) (height : 0 ≤ fit.b) (width : 0 ≤ fit.sigma) :
    IsLeast (Set.range (fit.variance realFunctions)) fit.bottom := by
  have root : √(1 - fit.rho * fit.rho) * √(1 - fit.rho * fit.rho) = 1 - fit.rho * fit.rho :=
    Real.mul_self_sqrt slope.le
  constructor
  · refine ⟨fit.m - fit.rho * fit.sigma / √(1 - fit.rho * fit.rho), ?_⟩
    have reached := hyperbola_reached root (Real.sqrt_pos.mpr slope) width
    unfold SviFit.variance sviTotalVarianceInner SviFit.bottom
    rw [sub_sub_cancel_left]
    exact congrArg (fit.a + fit.b * ·) reached
  · rintro w ⟨k, rfl⟩
    have lowest := @hyperbola_least _ fit.sigma _ root (k - fit.m)
    exact add_le_add_right (mul_le_mul_of_nonneg_left lowest height) fit.a

theorem smile_of_within {fit : SviFit ℝ} (within : Within sviLowerBounds sviUpperBounds fit.params) : Smile fit := by
  have level : 0 ≤ fit.a := (within 0).1
  have height : 1/10000 ≤ fit.b := (within 1).1
  have left : -999/1000 ≤ fit.rho := (within 2).1
  have right : fit.rho ≤ 999/1000 := (within 2).2
  have width : 1/10000 ≤ fit.sigma := (within 4).1
  have slope : 0 < 1 - fit.rho * fit.rho := by nlinarith
  have least := variance_bottom slope (by linarith) (by linarith)
  have positive : 0 < fit.bottom := by
    have rise : 0 < fit.b * (fit.sigma * √(1 - fit.rho * fit.rho)) :=
      mul_pos (by linarith) (mul_pos (by linarith) (Real.sqrt_pos.mpr slope))
    unfold SviFit.bottom
    linarith
  refine ⟨least, positive, ?_⟩
  intro f k t forward strike tte
  have guard : ¬(t ≤ 0 ∨ k ≤ 0 ∨ f ≤ 0) := by
    rintro (expired | low | low) <;> linarith
  have total : 0 < fit.variance realFunctions (Real.log (k / f)) := positive.trans_le (least.2 ⟨_, rfl⟩)
  have vol : sviImpliedVol realFunctions f k t fit.a fit.b fit.rho fit.m fit.sigma =
      √(fit.variance realFunctions (Real.log (k / f)) / t) := by
    unfold sviImpliedVol
    rw [if_neg guard]
    exact if_neg total.not_ge
  rw [vol, Real.sq_sqrt (div_pos total tte).le]
  exact ⟨Real.sqrt_pos.mpr (div_pos total tte), div_mul_cancel₀ _ tte.ne'⟩

section Sound

variable (f t : ℝ) (strikes marketIvs : List ℝ) (weights : Option (List ℝ))

structure SviCalibrated (start : ℝ) (fit : SviFit ℝ) : Prop where
  within : Within sviLowerBounds sviUpperBounds fit.params
  rmse : fit.rmse = √(meanSquare (sviResidual realFunctions f t strikes marketIvs weights fit.params))
  least : ∀ guess ∈ sviGuesses start, ∃ res, sviFitFrom realFunctions f t strikes marketIvs weights guess = .ok res ∧
    cost (sviResidual realFunctions f t strikes marketIvs weights fit.params) ≤ res.cost
  chosen : ∃ guess ∈ sviGuesses start, ∃ res, sviFitFrom realFunctions f t strikes marketIvs weights guess = .ok res ∧
    res.x = fit.params
  own : fit.nPoints = strikes.length

variable {f t strikes marketIvs weights}

theorem best_calibrated {start : ℝ} {best : LMResult 5 strikes.length ℝ}
    (chosen : Best (sviFitFrom realFunctions f t strikes marketIvs weights) (sviGuesses start) best) :
    SviCalibrated f t strikes marketIvs weights start
      ⟨best.x 0, best.x 1, best.x 2, best.x 3, best.x 4, √(meanSquare best.residuals), strikes.length⟩ := by
  obtain ⟨⟨guess, tried, reached⟩, least⟩ := chosen
  obtain ⟨res, solved, sound⟩ := lmSolve_solution realFunctions.sqrt
    (sviResidual realFunctions f t strikes marketIvs weights) sviBounds_ordered 500 guess
  cases solved.symm.trans reached
  have params : ![best.x 0, best.x 1, best.x 2, best.x 3, best.x 4] = best.x := by
    funext i
    fin_cases i <;> rfl
  constructor
  · simp only [SviFit.params, params]
    exact sound.within
  · simp only [SviFit.params, params, sound.residuals]
  · simp only [SviFit.params, params, ← sound.residuals, ← sound.cost]
    exact least
  · exact ⟨guess, tried, best, reached, params.symm⟩
  · rfl

-- A chain that is taken up gets the cheapest of its eight fits, unless that one is too
-- loose: the last check, on the variance at the strikes, refuses none.
theorem calibrateSvi_fit (start : ℝ) (found : atmVar realFunctions f t strikes marketIvs = .ok start)
    (positive : ∀ k ∈ strikes, 0 < k)
    (taken : ¬(strikes.length < 5 ∨ marketIvs.length ≠ strikes.length ∨ t ≤ 0 ∨ f ≤ 0)) (maxRmse : ℝ) :
    ∃ fit, SviCalibrated f t strikes marketIvs weights start fit ∧
      calibrateSvi realFunctions f t strikes marketIvs weights maxRmse =
        .ok (if fit.rmse > maxRmse then none else some fit) := by
  have solution (guess : Fin 5 → ℝ) : ∃ res, sviFitFrom realFunctions f t strikes marketIvs weights guess = .ok res :=
    (lmSolve_solution realFunctions.sqrt (sviResidual realFunctions f t strikes marketIvs weights)
      sviBounds_ordered 500 guess).imp fun _ => And.left
  obtain ⟨best, folded, none, chosen⟩ := foldlM_best (sviGuesses start) solution
  have comparable : strikes.any (· < 0) = false := by
    rw [List.any_eq_false]
    intro k member
    simpa using (positive k member).le
  cases best with
  | none => cases none rfl
  | some best =>
    have sound := best_calibrated (chosen best rfl)
    refine ⟨_, sound, ?_⟩
    have positive := (smile_of_within sound.within).positive
    have least := (smile_of_within sound.within).least
    unfold calibrateSvi
    simp only [if_neg taken, comparable, found]
    change Except.mapError SviFault.solver (((sviGuesses start).foldlM _ Option.none) >>= _) = _
    rw [folded]
    by_cases loose : √(meanSquare best.residuals) > maxRmse
    · rw [if_pos loose]
      exact congrArg (Except.mapError SviFault.solver) (if_pos loose)
    · rw [if_neg loose]
      refine congrArg (Except.mapError SviFault.solver) ((if_neg loose).trans (if_neg ?_))
      rw [Bool.not_eq_true, List.any_eq_false]
      intro k _
      rw [decide_eq_true_eq]
      exact (positive.trans_le (least.2 ⟨k, rfl⟩)).not_gt

end Sound

-- Every chain of positive strikes.
theorem svi_fits_smile (f t : ℝ) (strikes marketIvs : List ℝ) (weights : Option (List ℝ)) (maxRmse : ℝ)
    (positive : ∀ k ∈ strikes, 0 < k) :
    ((strikes.length < 5 ∨ marketIvs.length ≠ strikes.length ∨ t ≤ 0 ∨ f ≤ 0) →
      calibrateSvi realFunctions f t strikes marketIvs weights maxRmse = .ok none) ∧
    (¬(strikes.length < 5 ∨ marketIvs.length ≠ strikes.length ∨ t ≤ 0 ∨ f ≤ 0) →
      ∃ start fit, atmVar realFunctions f t strikes marketIvs = .ok start ∧
        SviCalibrated f t strikes marketIvs weights start fit ∧ Smile fit ∧
        calibrateSvi realFunctions f t strikes marketIvs weights maxRmse =
          .ok (if fit.rmse > maxRmse then none else some fit)) := by
  constructor
  · intro refused
    exact if_pos refused
  · intro taken
    obtain ⟨start, found⟩ := atmVar_ok realFunctions f t strikes marketIvs
    obtain ⟨fit, sound, result⟩ := calibrateSvi_fit start found positive taken maxRmse
    exact ⟨start, fit, found, sound, smile_of_within sound.within, result⟩

theorem svi_fits_smile_chain :
    ∃ start fit, atmVar realFunctions 100 (1/4) [90, 95, 100, 105, 110] [32/100, 3/10, 28/100, 29/100, 31/100] = .ok start ∧
      SviCalibrated 100 (1/4) [90, 95, 100, 105, 110] [32/100, 3/10, 28/100, 29/100, 31/100] none start fit ∧ Smile fit ∧
      calibrateSvi realFunctions 100 (1/4) [90, 95, 100, 105, 110] [32/100, 3/10, 28/100, 29/100, 31/100] none (1/20) =
        .ok (if fit.rmse > 1/20 then none else some fit) :=
  (svi_fits_smile 100 (1/4) [90, 95, 100, 105, 110] [32/100, 3/10, 28/100, 29/100, 31/100] none (1/20)
    (by simp)).2 (by norm_num)

end Corsair.Calibrate
