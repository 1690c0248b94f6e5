import Corsair.Calibrate.Svi
import Corsair.Sabr.Rejected

namespace Corsair.Sabr

open Black (Elementary)

-- The argument of Hagan's logarithm.
section Hagan

variable {rho : ℝ}

theorem hagan_square (slope : |rho| < 1) (z : ℝ) : (z - rho) ^ 2 < 1 - 2 * rho * z + z * z := by
  have square := (sq_lt_one_iff_abs_lt_one rho).mpr slope
  linarith [sq rho, sq_nonneg (z - rho), sub_sq z rho, sq z]

theorem hagan_root (slope : |rho| < 1) (z : ℝ) : 0 < 1 - 2 * rho * z + z * z :=
  (sq_nonneg (z - rho)).trans_lt (hagan_square slope z)

theorem hagan_above (slope : |rho| < 1) (z : ℝ) : 0 < √(1 - 2 * rho * z + z * z) + z - rho := by
  have below : rho - z < √(1 - 2 * rho * z + z * z) := by
    apply Real.lt_sqrt_of_sq_lt
    rw [← neg_sub z rho, neg_sq]
    exact hagan_square slope z
  linarith

-- The logarithm has the sign of z, as the argument is past one on one side of zero and
-- short of it on the other.
theorem hagan_ratio (slope : |rho| < 1) {z : ℝ} (nonzero : z ≠ 0) :
    0 < z / Real.log ((√(1 - 2 * rho * z + z * z) + z - rho) / (1 - rho)) := by
  obtain ⟨left, right⟩ := abs_lt.mp slope
  have room : 0 < 1 - rho := by linarith
  have positive := hagan_above slope z
  have root := Real.sq_sqrt (hagan_root slope z).le
  have rooted := Real.sqrt_nonneg (1 - 2 * rho * z + z * z)
  rcases nonzero.lt_or_gt with below | above
  · have short : √(1 - 2 * rho * z + z * z) < 1 - z := by nlinarith
    apply div_pos_of_neg_of_neg below
    apply Real.log_neg (div_pos positive room)
    rw [div_lt_one room]
    linarith
  · have past : 1 - z < √(1 - 2 * rho * z + z * z) := by
      apply Real.lt_sqrt_of_sq_lt
      nlinarith
    apply div_pos above
    apply Real.log_pos
    rw [one_lt_div room]
    linarith

end Hagan

section Python

theorem pyDiv_ok {𝕜 : Type*} [Field 𝕜] [LinearOrder 𝕜] (x : 𝕜) {y : 𝕜} (nonzero : y ≠ 0) : pyDiv x y = .ok (x / y) :=
  Checked.div_ok nonzero x

-- The functions, with some numbers past what a float holds.
noncomputable def boundedFunctions (finite : ℝ → Bool) : Elementary ℝ := { realFunctions with isFinite := finite }

variable {finite : ℝ → Bool}

theorem pyLog_ok {x : ℝ} (positive : 0 < x) : pyLog (boundedFunctions finite) x = .ok (Real.log x) := if_neg positive.not_ge

theorem pySqrt_ok {x : ℝ} (nonneg : 0 ≤ x) : pySqrt (boundedFunctions finite) x = .ok √x := if_neg nonneg.not_gt

theorem far_nonzero {z : ℝ} (far : ¬|z| < 1/10^7) : z ≠ 0 := by
  rintro rfl
  norm_num at far

noncomputable def haganRatio (rho z : ℝ) : ℝ :=
  if |z| < 1/10^7 then 1 else z / Real.log ((√(1 - 2 * rho * z + z * z) + z - rho) / (1 - rho))

-- The ratio takes no powers and has every step of it defined, on both sides of the threshold.
theorem hagan_returns {rho : ℝ} (slope : |rho| < 1) (z : ℝ) :
    xzOf (boundedFunctions finite) rho z = .ok (haganRatio rho z) := by
  unfold xzOf haganRatio
  split
  · rfl
  · rename_i far
    have room : 0 < 1 - rho := by linarith [(abs_lt.mp slope).2]
    have ratio := hagan_ratio slope (far_nonzero far)
    have quotient : Real.log ((√(1 - 2 * rho * z + z * z) + z - rho) / (1 - rho)) ≠ 0 := by
      intro flat
      rw [flat, div_zero] at ratio
      exact ratio.false
    simp only [bind, Except.bind, pySqrt_ok (hagan_root slope z).le, pyDiv_ok _ room.ne',
      pyLog_ok (div_pos (hagan_above slope z) room), pyDiv_ok _ quotient]

end Python

-- The powers that sabr.py takes, in their order.
noncomputable def sabrPowers (f k t alpha beta rho nu : ℝ) : List ℝ :=
  if t ≤ 0 ∨ alpha ≤ 0 ∨ f ≤ 0 ∨ k ≤ 0 then []
  else if |f - k| < 1/10^7 * f then [f^(1 - beta), (1 - beta)^2, alpha^2, f^(2 - 2 * beta), rho^2, nu^2]
  else [(f * k)^((1 - beta) / 2), (1 - beta)^2, Real.log (f / k)^2, (1 - beta)^4, Real.log (f / k)^4, alpha^2,
    (f * k)^(1 - beta), rho^2, nu^2]

noncomputable def sviPowers (f k t : ℝ) (p : SVIParams ℝ) : List ℝ :=
  if t ≤ 0 ∨ k ≤ 0 ∨ f ≤ 0 then [] else [(Real.log (k / f) - p.m)^2, p.sigma^2]

open Checked (Screened)

-- Whatever the parameters, as long as the correlation is within its limits, sabr.py
-- returns what the crate does or overflows on one of its powers.
theorem sabr_screened (finite : ℝ → Bool) {rho : ℝ} (slope : |rho| < 1) (f k t alpha beta nu : ℝ) :
    Screened finite .overflow (sabrImpliedVol (boundedFunctions finite) f k t alpha beta rho nu)
      (sabrPowers f k t alpha beta rho nu) (Calibrate.sabrImpliedVol realFunctions f k t alpha beta rho nu) := by
  unfold sabrImpliedVol Calibrate.sabrImpliedVol sabrPowers
  by_cases guard : t ≤ 0 ∨ alpha ≤ 0 ∨ f ≤ 0 ∨ k ≤ 0
  · rw [if_pos guard, if_pos guard, if_pos guard]
    exact .pure rfl
  · rw [if_neg guard, if_neg guard, if_neg guard]
    simp only [not_or, not_le] at guard
    obtain ⟨tte, level, forward, strike⟩ := guard
    have power (e x : ℝ) (positive : 0 < x) : x^e ≠ 0 := (Real.rpow_pos_of_pos positive e).ne'
    by_cases atm : |f - k| < 1/10^7 * f
    · simp only [if_pos atm]
      refine .check (.next (pyDiv_ok _ (power _ _ forward)) (.check (.check (.check ?_))))
      refine .next (pyDiv_ok _ (power _ _ forward)) (.next (pyDiv_ok _ (power _ _ forward)) (.check (.check ?_)))
      refine .pure (congrArg Except.ok ?_)
      simp only [boundedFunctions, realFunctions]
      ring
    · have product : 0 < f * k := mul_pos forward strike
      have denominator : (f * k)^((1 - beta) / 2) * (1 + (1 - beta)^2 / 24 * Real.log (f / k)^2 +
          (1 - beta)^4 / 1920 * Real.log (f / k)^4) ≠ 0 :=
        mul_ne_zero (power _ _ product) (by positivity)
      simp only [if_neg atm]
      refine .check (.next (pyLog_ok (div_pos forward strike)) ?_)
      refine .next (hagan_returns slope _) ?_
      refine .check (.check (.check (.check (.check (.check ?_)))))
      refine .next (pyDiv_ok _ (power _ _ product)) (.next (pyDiv_ok _ (power _ _ product)) (.check (.check ?_)))
      refine .next (pyDiv_ok _ denominator) (.pure (congrArg Except.ok ?_))
      simp only [boundedFunctions, realFunctions, haganRatio]
      refine congrArg₂ (· * ·) rfl ?_
      ring

-- svi.py does so for any parameters at all.
theorem svi_screened (finite : ℝ → Bool) (f k t : ℝ) (p : SVIParams ℝ) :
    Screened finite .overflow (sviImpliedVol (boundedFunctions finite) f k t p) (sviPowers f k t p)
      (Calibrate.sviImpliedVol realFunctions f k t p.a p.b p.rho p.m p.sigma) := by
  unfold sviImpliedVol Calibrate.sviImpliedVol sviPowers
  by_cases guard : t ≤ 0 ∨ k ≤ 0 ∨ f ≤ 0
  · rw [if_pos guard, if_pos guard, if_pos guard]
    exact .pure rfl
  · rw [if_neg guard, if_neg guard, if_neg guard]
    simp only [not_or, not_le] at guard
    obtain ⟨tte, strike, forward⟩ := guard
    refine .next (pyLog_ok (div_pos strike forward)) ?_
    unfold sviTotalVariance Calibrate.sviTotalVarianceInner
    simp only [bind_assoc]
    have square : 0 ≤ (Real.log (k / f) - p.m)^2 + p.sigma^2 := add_nonneg (sq_nonneg _) (sq_nonneg _)
    refine .check (.check (.next (pySqrt_ok square) ?_))
    refine .next rfl (.pure ?_)
    rw [← sq, ← sq]
    split
    · rename_i dead
      exact congrArg Except.ok (if_pos dead).symm
    · rename_i positive
      exact (pySqrt_ok (div_pos (not_le.mp positive) tte).le).trans (congrArg Except.ok (if_neg positive).symm)

section Sign

variable (f k alpha beta rho nu : ℝ)

-- Hagan's correction for the time to expiry, a year's worth.
noncomputable def haganCorrection : ℝ :=
  let p3 := (2 - 3 * rho * rho) * nu * nu / 24
  if |f - k| < 1/10^7 * f then
    (1 - beta)^2 / 24 * alpha * alpha / f^(2 - 2 * beta) + 1/4 * rho * beta * nu * alpha / f^(1 - beta) + p3
  else
    (1 - beta)^2 / 24 * alpha * alpha / (f * k)^(1 - beta) + 1/4 * rho * beta * nu * alpha / (f * k)^((1 - beta) / 2) + p3

variable {f k alpha rho}

-- The rest of the formula is positive, so that a vol has the sign of its correction.
theorem sabr_sign {t : ℝ} (slope : |rho| < 1) (tte : 0 < t) (level : 0 < alpha) (forward : 0 < f) (strike : 0 < k) :
    0 < Calibrate.sabrImpliedVol realFunctions f k t alpha beta rho nu ↔
      0 < 1 + haganCorrection f k alpha beta rho nu * t := by
  have guard : ¬(t ≤ 0 ∨ alpha ≤ 0 ∨ f ≤ 0 ∨ k ≤ 0) := by
    simp only [not_or, not_le]
    exact ⟨tte, level, forward, strike⟩
  have power (e x : ℝ) (positive : 0 < x) : 0 < realFunctions.powf x e := Real.rpow_pos_of_pos positive e
  unfold Calibrate.sabrImpliedVol haganCorrection
  rw [if_neg guard]
  by_cases atm : |f - k| < 1/10^7 * f
  · simp only [if_pos atm]
    exact mul_pos_iff_of_pos_left (div_pos level (power _ _ forward))
  · have product : 0 < f * k := mul_pos forward strike
    have denominator : 0 < realFunctions.powf (f * k) ((1 - beta) / 2) * (1 + (1 - beta)^2 / 24 *
        realFunctions.ln (f / k)^2 + (1 - beta)^4 / 1920 * realFunctions.ln (f / k)^4) :=
      mul_pos (power _ _ product) (by positivity)
    simp only [if_neg atm]
    apply mul_pos_iff_of_pos_left
    apply mul_pos (div_pos level denominator)
    split
    · exact one_pos
    · rename_i far
      exact hagan_ratio slope (far_nonzero far)

end Sign

-- Where sabr.py prices a fit, the crate prices it the same, unless a power overflows,
-- and a vol of the formula is positive exactly where the correction for time keeps it so.
theorem vol_formulas (finite : ℝ → Bool) :
    (∀ f k t alpha beta rho nu : ℝ, |rho| < 1 →
      sabrImpliedVol (boundedFunctions finite) f k t alpha beta rho nu =
          (if (sabrPowers f k t alpha beta rho nu).all finite then
            .ok (Calibrate.sabrImpliedVol realFunctions f k t alpha beta rho nu)
          else .error .overflow) ∧
        (0 < t → 0 < alpha → 0 < f → 0 < k →
          (0 < Calibrate.sabrImpliedVol realFunctions f k t alpha beta rho nu ↔
            0 < 1 + haganCorrection f k alpha beta rho nu * t))) ∧
    ∀ (f k t : ℝ) (p : SVIParams ℝ), sviImpliedVol (boundedFunctions finite) f k t p =
      if (sviPowers f k t p).all finite then
        .ok (Calibrate.sviImpliedVol realFunctions f k t p.a p.b p.rho p.m p.sigma)
      else .error .overflow := by
  constructor
  · intro f k t alpha beta rho nu slope
    refine ⟨sabr_screened finite slope f k t alpha beta nu, ?_⟩
    intro tte level forward strike
    exact sabr_sign beta nu slope tte level forward strike
  · intro f k t p
    exact svi_screened finite f k t p

end Corsair.Sabr
