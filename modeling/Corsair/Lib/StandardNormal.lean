import Corsair.Lib.Numeral
import Mathlib.Analysis.Calculus.Deriv.MeanValue
import Mathlib.MeasureTheory.Integral.IntervalIntegral.FundThmCalculus
import Mathlib.Probability.CDF
import Mathlib.Probability.Distributions.Gaussian.Real

namespace Corsair.StandardNormal

open MeasureTheory ProbabilityTheory Set

-- The standard normal law.
noncomputable def cdf : ℝ → ℝ := ProbabilityTheory.cdf (gaussianReal 0 1)

noncomputable def pdf : ℝ → ℝ := gaussianPDFReal 0 1

theorem pdf_exp (x : ℝ) : pdf x = (√(2 * Real.pi))⁻¹ * Real.exp (-x ^ 2 / 2) := by
  unfold pdf gaussianPDFReal
  simp

theorem pdf_pos (x : ℝ) : 0 < pdf x := gaussianPDFReal_pos 0 1 x one_ne_zero

theorem pdf_neg (x : ℝ) : pdf (-x) = pdf x := by
  simp [pdf_exp]

theorem pdf_le (x : ℝ) : pdf x ≤ pdf 0 := by
  rw [pdf_exp, pdf_exp]
  apply mul_le_mul_of_nonneg_left
  · rw [Real.exp_le_exp]
    linarith [sq_nonneg x]
  · positivity

theorem pdf_continuous : Continuous pdf := by
  rw [funext pdf_exp]
  fun_prop

-- Two densities differ by the exponential of half the difference of the squares.
theorem pdf_ratio {x y a : ℝ} (squares : x ^ 2 - y ^ 2 = 2 * a) : pdf y = pdf x * Real.exp a := by
  rw [pdf_exp, pdf_exp, mul_assoc, ← Real.exp_add]
  congr 2
  linarith

theorem pdf_integrable : Integrable pdf := integrable_gaussianPDFReal 0 1

theorem cdf_integral (x : ℝ) : cdf x = ∫ y in Iic x, pdf y := by
  unfold cdf
  rw [cdf_eq_real, measureReal_def, gaussianReal_apply_eq_integral 0 one_ne_zero]
  apply ENNReal.toReal_ofReal
  exact integral_nonneg fun y => (pdf_pos y).le

theorem hasDerivAt_cdf (x : ℝ) : HasDerivAt cdf (pdf x) x := by
  have split : cdf = fun y => (∫ z in Iic (0 : ℝ), pdf z) + ∫ z in (0 : ℝ)..y, pdf z := by
    funext y
    rw [← intervalIntegral.integral_Iic_sub_Iic pdf_integrable.integrableOn pdf_integrable.integrableOn, cdf_integral]
    ring
  rw [split]
  apply HasDerivAt.const_add
  apply intervalIntegral.integral_hasDerivAt_right
  · exact pdf_continuous.intervalIntegrable 0 x
  · exact pdf_continuous.stronglyMeasurableAtFilter _ _
  · exact pdf_continuous.continuousAt

theorem cdf_continuous : Continuous cdf := continuous_iff_continuousAt.mpr fun x => (hasDerivAt_cdf x).continuousAt

theorem cdf_strictMono : StrictMono cdf := by
  apply strictMono_of_deriv_pos
  intro x
  rw [(hasDerivAt_cdf x).deriv]
  exact pdf_pos x

theorem cdf_neg (x : ℝ) : cdf (-x) = 1 - cdf x := by
  have whole : (∫ y in Iic x, pdf y) + ∫ y in Ioi x, pdf y = 1 := by
    rw [← compl_Iic, integral_add_compl measurableSet_Iic pdf_integrable]
    exact integral_gaussianPDFReal_eq_one 0 one_ne_zero
  have mirrored : cdf (-x) = ∫ y in Ioi x, pdf y := by
    rw [cdf_integral, ← integral_comp_neg_Ioi]
    simp only [pdf_neg]
  rw [mirrored, cdf_integral]
  linarith

theorem cdf_pos (x : ℝ) : 0 < cdf x :=
  (ProbabilityTheory.cdf_nonneg _ (x - 1)).trans_lt (cdf_strictMono (sub_one_lt x))

theorem cdf_lt_one (x : ℝ) : cdf x < 1 := by
  have mirrored := cdf_pos (-x)
  rw [cdf_neg] at mirrored
  linarith

end Corsair.StandardNormal
