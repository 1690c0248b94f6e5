import Corsair.Lib.StandardNormal
import Corsair.Sabr.Rejected
import Mathlib.Analysis.Real.Pi.Bounds

namespace Corsair.Black

open StandardNormal (cdf pdf)
open Sabr (realFunctions)

section Code

variable {𝕜 : Type*} [Field 𝕜] [LinearOrder 𝕜] (fn : Elementary 𝕜)

-- greeks.rs
structure GreeksOut (𝕜 : Type*) where
  delta : 𝕜
  gamma : 𝕜
  theta : 𝕜
  vega : 𝕜
  iv : 𝕜

def invSqrt2Pi : 𝕜 := 3989422804014327 / 10^16

def normPdf (x : 𝕜) : 𝕜 := invSqrt2Pi * fn.exp (-(1/2) * x * x)

def isCallChar (right : Char) : Bool := right = 'C' ∨ right = 'c'

def intrinsicGreeks (f k sigma : 𝕜) (right : Char) : GreeksOut 𝕜 :=
  let intrinsicDelta : 𝕜 := if k < f then 1 else if f < k then 0 else 1/2
  ⟨if isCallChar right then intrinsicDelta else intrinsicDelta - 1, 0, 0, 0, sigma⟩

def liveGreeks (f k t sigma r : 𝕜) (right : Char) (multiplier : 𝕜) : GreeksOut 𝕜 :=
  let isCall := isCallChar right
  let discount := fn.exp (-r * t)
  let sqrtT := fn.sqrt t
  let d1 := (fn.ln (f / k) + 1/2 * sigma * sigma * t) / (sigma * sqrtT)
  let d2 := d1 - sigma * sqrtT
  let nD1 := normPdf fn d1
  let bigND1 := fn.normCdf d1
  let bigND2 := fn.normCdf d2
  let delta := if isCall then discount * bigND1 else discount * (bigND1 - 1)
  let gamma := discount * nD1 / (f * sigma * sqrtT) * multiplier
  let common := -discount * f * nD1 * sigma / (2 * sqrtT)
  let theta :=
    if isCall then (common - r * k * discount * bigND2) / 365
    else (common + r * k * discount * fn.normCdf (-d2)) / 365
  let vega := f * discount * nD1 * sqrtT / 100
  ⟨delta, gamma, theta * multiplier, vega * multiplier, sigma⟩

def GreeksOut.isFinite (g : GreeksOut 𝕜) : Bool :=
  fn.isFinite g.delta && fn.isFinite g.gamma && fn.isFinite g.theta && fn.isFinite g.vega

def computeGreeks (f k t sigma r : 𝕜) (right : Char) (multiplier : 𝕜) : GreeksOut 𝕜 :=
  if t < 1/10^10 ∨ sigma ≤ 0 ∨ f ≤ 0 ∨ k ≤ 0 then intrinsicGreeks f k sigma right
  else
    let out := liveGreeks fn f k t sigma r right multiplier
    if out.isFinite fn then out else intrinsicGreeks f k sigma right

end Code

-- The undiscounted value of a call in the forward and the total volatility.
noncomputable def moneyness (f k w : ℝ) : ℝ := Real.log (f / k) / w + w / 2

noncomputable def forwardCall (f k w : ℝ) : ℝ := f * cdf (moneyness f k w) - k * cdf (moneyness f k w - w)

section Forward

variable {f k w : ℝ}

-- Both legs of the payoff move alike with the moneyness.
theorem legs_balanced (forward : 0 < f) (strike : 0 < k) (width : w ≠ 0) :
    k * pdf (moneyness f k w - w) = f * pdf (moneyness f k w) := by
  have squares : moneyness f k w ^ 2 - (moneyness f k w - w) ^ 2 = 2 * Real.log (f / k) := by
    unfold moneyness
    field_simp
    ring
  rw [StandardNormal.pdf_ratio squares, Real.exp_log (div_pos forward strike)]
  field_simp

theorem moneyness_forward (forward : 0 < f) (strike : 0 < k) :
    HasDerivAt (fun x => moneyness x k w) (1 / (f * w)) f := by
  have logged : HasDerivAt (fun x => Real.log (x / k)) (1 / k / (f / k)) f :=
    ((hasDerivAt_id f).div_const k).log (div_pos forward strike).ne'
  have whole := (logged.div_const w).add_const (w / 2)
  refine whole.congr_deriv ?_
  field_simp

theorem moneyness_width (width : w ≠ 0) :
    HasDerivAt (fun x => moneyness f k x) (1 / 2 - Real.log (f / k) / w ^ 2) w := by
  have divided := (hasDerivAt_inv width).const_mul (Real.log (f / k))
  have whole := divided.add ((hasDerivAt_id w).div_const 2)
  refine whole.congr_deriv ?_
  ring

theorem forwardCall_forward (forward : 0 < f) (strike : 0 < k) (width : w ≠ 0) :
    HasDerivAt (fun x => forwardCall x k w) (cdf (moneyness f k w)) f := by
  have moved := moneyness_forward (w := w) forward strike
  have long := (hasDerivAt_id f).mul ((StandardNormal.hasDerivAt_cdf _).comp f moved)
  have short := ((StandardNormal.hasDerivAt_cdf _).comp f (moved.sub_const w)).const_mul k
  have whole := long.sub short
  refine whole.congr_deriv ?_
  have balanced := legs_balanced forward strike width
  simp only [id_eq, Function.comp_apply]
  linear_combination -(1 / (f * w)) * balanced

theorem forwardCall_width (forward : 0 < f) (strike : 0 < k) (width : w ≠ 0) :
    HasDerivAt (fun x => forwardCall f k x) (f * pdf (moneyness f k w)) w := by
  have moved := moneyness_width (f := f) (k := k) width
  have long := ((StandardNormal.hasDerivAt_cdf _).comp w moved).const_mul f
  have short := ((StandardNormal.hasDerivAt_cdf _).comp w (moved.sub (hasDerivAt_id w))).const_mul k
  have whole := long.sub short
  refine whole.congr_deriv ?_
  have balanced := legs_balanced forward strike width
  simp only [Pi.sub_apply, id_eq]
  linear_combination -(1 / 2 - Real.log (f / k) / w ^ 2 - 1) * balanced

end Forward

-- The constant of the density, against the exact one.
noncomputable def densityScale : ℝ := invSqrt2Pi * √(2 * Real.pi)

theorem densityScale_near : |densityScale - 1| ≤ 1 / 10^15 := by
  have square : densityScale ^ 2 = (3989422804014327 / 10^16) ^ 2 * (2 * Real.pi) := by
    unfold densityScale invSqrt2Pi
    rw [mul_pow, Real.sq_sqrt (by positivity)]
  have positive : 0 < densityScale := by
    unfold densityScale invSqrt2Pi
    positivity
  have low := Real.pi_gt_d20
  have high := Real.pi_lt_d20
  rw [abs_le]
  constructor
  · nlinarith
  · nlinarith

theorem normPdf_scaled (x : ℝ) : normPdf realFunctions x = densityScale * pdf x := by
  have root : √(2 * Real.pi) ≠ 0 := by positivity
  have power : -(1 / 2) * x * x = -x ^ 2 / 2 := by ring
  unfold normPdf densityScale
  rw [StandardNormal.pdf_exp, power, mul_assoc, mul_inv_cancel_left₀ root]
  rfl

section Real

variable {f k t sigma : ℝ} (r : ℝ) (right : Char)

-- What a put lacks of a call.
noncomputable def legs (right : Char) (call : ℝ) : ℝ := if isCallChar right then 0 else call

theorem width_square (time : 0 ≤ t) : (sigma * √t) ^ 2 = sigma * sigma * t := by
  rw [mul_pow, Real.sq_sqrt time]
  ring

theorem d1_moneyness (time : 0 < t) (vol : 0 < sigma) :
    (Real.log (f / k) + 1/2 * sigma * sigma * t) / (sigma * √t) = moneyness f k (sigma * √t) := by
  have width : sigma * √t ≠ 0 := (mul_pos vol (Real.sqrt_pos.mpr time)).ne'
  have square : (sigma * √t) ^ 2 = sigma * sigma * t := width_square time.le
  unfold moneyness
  rw [div_add_div _ _ width two_ne_zero, div_eq_div_iff width (mul_ne_zero width two_ne_zero)]
  linear_combination -(sigma * √t) * square

theorem price_forwardCall (forward : 0 < f) (strike : 0 < k) (time : 0 < t) (vol : 0 < sigma) :
    black76PriceInner realFunctions f k t sigma r right =
      Real.exp (-r * t) * (forwardCall f k (sigma * √t) - legs right (f - k)) := by
  have live : ¬(t ≤ 0 ∨ sigma ≤ 0 ∨ f ≤ 0 ∨ k ≤ 0) := by
    simp [forward, strike, time, vol]
  have d1 := d1_moneyness (f := f) (k := k) time vol
  unfold black76PriceInner
  simp only [if_neg live]
  change (if isCallChar right = true then _ else _) = _
  simp only [realFunctions]
  rw [d1]
  unfold forwardCall legs
  split
  · rw [sub_zero]
    rfl
  · change Real.exp (-r * t) * (k * cdf _ - f * cdf _) = _
    rw [StandardNormal.cdf_neg, StandardNormal.cdf_neg]
    ring

theorem greeks_closed (multiplier : ℝ) (time : 0 < t) (vol : 0 < sigma) :
    liveGreeks realFunctions f k t sigma r right multiplier =
      let discount := Real.exp (-r * t)
      let w := sigma * √t
      let d := moneyness f k w
      let density := densityScale * pdf d
      let common := -discount * f * density * sigma / (2 * √t)
      ⟨discount * (cdf d - legs right 1), discount * density / (f * w) * multiplier,
        (common - r * k * discount * (cdf (d - w) - legs right 1)) / 365 * multiplier,
        f * discount * density * √t / 100 * multiplier, sigma⟩ := by
  have d1 := d1_moneyness (f := f) (k := k) time vol
  unfold liveGreeks
  simp only [normPdf_scaled]
  simp only [realFunctions]
  rw [d1]
  unfold legs
  split
  · simp only [sub_zero, GreeksOut.mk.injEq, and_true]
    refine ⟨rfl, ?_, rfl⟩
    ring
  · simp only [GreeksOut.mk.injEq, and_true]
    refine ⟨rfl, by ring, ?_⟩
    change (_ + r * k * Real.exp (-r * t) * cdf _) / 365 * multiplier = _
    rw [StandardNormal.cdf_neg]
    ring

-- The inputs compute_greeks works on; on all others it answers the intrinsic greeks.
structure Priced (f k t sigma : ℝ) : Prop where
  time : 1/10^10 ≤ t
  vol : 0 < sigma
  forward : 0 < f
  strike : 0 < k

theorem priced_positive (priced : Priced f k t sigma) : 0 < t := lt_of_lt_of_le (by positivity) priced.time

theorem priced_iff : Priced f k t sigma ↔ ¬(t < 1/10^10 ∨ sigma ≤ 0 ∨ f ≤ 0 ∨ k ≤ 0) := by
  simp only [not_or, not_lt, not_le]
  exact ⟨fun h => ⟨h.time, h.vol, h.forward, h.strike⟩, fun ⟨time, vol, forward, strike⟩ => ⟨time, vol, forward, strike⟩⟩

theorem computeGreeks_live (fn : Elementary ℝ) (multiplier : ℝ) (priced : Priced f k t sigma)
    (finite : (liveGreeks fn f k t sigma r right multiplier).isFinite fn = true) :
    computeGreeks fn f k t sigma r right multiplier = liveGreeks fn f k t sigma r right multiplier := by
  unfold computeGreeks
  rw [if_neg (priced_iff.mp priced)]
  exact if_pos finite

theorem computeGreeks_priced (multiplier : ℝ) (priced : Priced f k t sigma) :
    computeGreeks realFunctions f k t sigma r right multiplier = liveGreeks realFunctions f k t sigma r right multiplier :=
  computeGreeks_live r right realFunctions multiplier priced rfl

theorem computeGreeks_dead (fn : Elementary ℝ) (multiplier : ℝ)
    (dead : ¬(Priced f k t sigma ∧ (liveGreeks fn f k t sigma r right multiplier).isFinite fn = true)) :
    computeGreeks fn f k t sigma r right multiplier = intrinsicGreeks f k sigma right := by
  unfold computeGreeks
  split
  · rfl
  · rename_i priced
    exact if_neg fun finite => dead ⟨priced_iff.mpr priced, finite⟩

variable {r right}

theorem legs_slope (f k : ℝ) (right : Char) : HasDerivAt (fun x => legs right (x - k)) (legs right 1) f := by
  unfold legs
  split
  · exact hasDerivAt_const f 0
  · exact (hasDerivAt_id f).sub_const k

theorem price_forward (forward : 0 < f) (strike : 0 < k) (time : 0 < t) (vol : 0 < sigma) :
    HasDerivAt (fun x => black76PriceInner realFunctions x k t sigma r right)
      (Real.exp (-r * t) * (cdf (moneyness f k (sigma * √t)) - legs right 1)) f := by
  have width : sigma * √t ≠ 0 := (mul_pos vol (Real.sqrt_pos.mpr time)).ne'
  have closed := ((forwardCall_forward forward strike width).sub (legs_slope f k right)).const_mul (Real.exp (-r * t))
  apply closed.congr_of_eventuallyEq
  filter_upwards [lt_mem_nhds forward] with x positive
  exact price_forwardCall r right positive strike time vol

theorem price_vol (forward : 0 < f) (strike : 0 < k) (time : 0 < t) (vol : 0 < sigma) :
    HasDerivAt (fun x => black76PriceInner realFunctions f k t x r right)
      (Real.exp (-r * t) * (f * pdf (moneyness f k (sigma * √t)) * √t)) sigma := by
  have width : sigma * √t ≠ 0 := (mul_pos vol (Real.sqrt_pos.mpr time)).ne'
  have scaled : HasDerivAt (fun x => x * √t) √t sigma := by
    simpa using (hasDerivAt_id sigma).mul_const √t
  have composed := (forwardCall_width forward strike width).comp sigma scaled
  have closed := (composed.sub_const (legs right (f - k))).const_mul (Real.exp (-r * t))
  apply closed.congr_of_eventuallyEq
  filter_upwards [lt_mem_nhds vol] with x positive
  exact price_forwardCall r right forward strike time positive

theorem price_time (forward : 0 < f) (strike : 0 < k) (time : 0 < t) (vol : 0 < sigma) :
    HasDerivAt (fun x => black76PriceInner realFunctions f k x sigma r right)
      (-r * black76PriceInner realFunctions f k t sigma r right +
        Real.exp (-r * t) * (f * pdf (moneyness f k (sigma * √t)) * (sigma / (2 * √t)))) t := by
  have width : sigma * √t ≠ 0 := (mul_pos vol (Real.sqrt_pos.mpr time)).ne'
  have scaled : HasDerivAt (fun x => sigma * √x) (sigma * (1 / (2 * √t))) t :=
    (Real.hasDerivAt_sqrt time.ne').const_mul sigma
  have discounted : HasDerivAt (fun x => Real.exp (-r * x)) (Real.exp (-r * t) * -r) t := by
    simpa using ((hasDerivAt_id t).const_mul (-r)).exp
  have composed := (forwardCall_width forward strike width).comp t scaled
  have closed := discounted.mul (composed.sub_const (legs right (f - k)))
  apply HasDerivAt.congr_of_eventuallyEq (closed.congr_deriv ?_)
  · filter_upwards [lt_mem_nhds time] with x positive
    exact price_forwardCall r right forward strike positive vol
  · rw [price_forwardCall r right forward strike time vol]
    simp only [Function.comp_apply]
    ring

-- What the greeks of an option are of its price, up to the constant of the density.
structure Sensitivities (f k t sigma r : ℝ) (right : Char) (multiplier : ℝ) (g : GreeksOut ℝ) : Prop where
  delta : HasDerivAt (fun x => black76PriceInner realFunctions x k t sigma r right) g.delta f
  gamma : HasDerivAt (fun x => densityScale * multiplier *
    (computeGreeks realFunctions x k t sigma r right multiplier).delta) g.gamma f
  vega : HasDerivAt (fun x => densityScale * multiplier / 100 *
    black76PriceInner realFunctions f k t x r right) g.vega sigma
  -- With interest, the decay of the price lacks what the delta earns.
  theta : ∃ decay, HasDerivAt (fun x => black76PriceInner realFunctions f k x sigma r right) decay t ∧
    let price := black76PriceInner realFunctions f k t sigma r right
    g.theta = -(multiplier / 365) * (densityScale * (decay + r * price) + r * (f * g.delta - price))
  iv : g.iv = sigma
  scale : |densityScale - 1| ≤ 1 / 10^15

-- The intrinsic greeks: what the price at expiry moves with the forward, and at the
-- strike, where it has a corner, halfway between its two slopes.
structure Intrinsic (f k sigma r : ℝ) (right : Char) (g : GreeksOut ℝ) : Prop where
  delta : f ≠ k → HasDerivAt (fun x => black76PriceInner realFunctions x k 0 sigma r right) g.delta f
  corner : f = k → g.delta = 1/2 - legs right 1
  flat : g.gamma = 0 ∧ g.theta = 0 ∧ g.vega = 0
  iv : g.iv = sigma

-- Over any notion of which numbers are finite, f64's overflow included.
structure GreeksSound (f k t sigma r : ℝ) (right : Char) (multiplier : ℝ) (finite : Bool) (g : GreeksOut ℝ) : Prop where
  priced : Priced f k t sigma → finite = true → Sensitivities f k t sigma r right multiplier g
  intrinsic : ¬(Priced f k t sigma ∧ finite = true) → Intrinsic f k sigma r right g

theorem priced_sensitivities (multiplier : ℝ) (priced : Priced f k t sigma) :
    Sensitivities f k t sigma r right multiplier (liveGreeks realFunctions f k t sigma r right multiplier) := by
  obtain ⟨time, vol, forward, strike⟩ := priced
  have positive : 0 < t := lt_of_lt_of_le (by positivity) time
  have root : √t ≠ 0 := (Real.sqrt_pos.mpr positive).ne'
  have closed := greeks_closed (f := f) (k := k) r right multiplier positive vol
  constructor
  · rw [closed]
    exact price_forward forward strike positive vol
  · have width : sigma * √t ≠ 0 := mul_ne_zero vol.ne' root
    have curved := (StandardNormal.hasDerivAt_cdf _).comp f (moneyness_forward (w := sigma * √t) forward strike)
    have scaled := ((curved.sub_const (legs right 1)).const_mul (Real.exp (-r * t))).const_mul (densityScale * multiplier)
    apply HasDerivAt.congr_of_eventuallyEq (scaled.congr_deriv ?_)
    · filter_upwards [lt_mem_nhds forward] with x above
      rw [computeGreeks_priced r right multiplier ⟨time, vol, above, strike⟩,
        greeks_closed r right multiplier positive vol]
      rfl
    · rw [closed]
      ring
  · apply ((price_vol forward strike positive vol).const_mul (densityScale * multiplier / 100)).congr_deriv
    rw [closed]
    ring
  · refine ⟨_, price_time forward strike positive vol, ?_⟩
    rw [closed, price_forwardCall r right forward strike positive vol]
    unfold forwardCall legs
    split <;> ring
  · rfl
  · exact densityScale_near

theorem price_expired (f k sigma r : ℝ) (right : Char) :
    black76PriceInner realFunctions f k 0 sigma r right = max (f - k) 0 - legs right (f - k) := by
  unfold black76PriceInner legs
  rw [if_pos (.inl le_rfl)]
  change (if isCallChar right = true then _ else _) = _
  split
  · rw [sub_zero]
  · rcases le_total f k with below | above
    · rw [max_eq_left (sub_nonneg.mpr below), max_eq_right (sub_nonpos.mpr below)]
      ring
    · rw [max_eq_right (sub_nonpos.mpr above), max_eq_left (sub_nonneg.mpr above)]
      ring

theorem payoff_slope (apart : f ≠ k) : HasDerivAt (fun x => max (x - k) 0) (if k < f then 1 else 0) f := by
  rcases apart.lt_or_gt with below | above
  · rw [if_neg (not_lt.mpr below.le)]
    apply (hasDerivAt_const f (0 : ℝ)).congr_of_eventuallyEq
    filter_upwards [gt_mem_nhds below] with x lower
    exact max_eq_right (sub_nonpos.mpr lower.le)
  · rw [if_pos above]
    apply ((hasDerivAt_id f).sub_const k).congr_of_eventuallyEq
    filter_upwards [lt_mem_nhds above] with x upper
    exact max_eq_left (sub_nonneg.mpr upper.le)

theorem intrinsic_delta : (intrinsicGreeks f k sigma right).delta =
    (if k < f then 1 else if f < k then 0 else 1/2) - legs right 1 := by
  unfold intrinsicGreeks legs
  by_cases call : isCallChar right = true <;> simp [call]

theorem intrinsic_sound : Intrinsic f k sigma r right (intrinsicGreeks f k sigma right) := by
  refine ⟨?_, ?_, ⟨rfl, rfl, rfl⟩, rfl⟩
  · intro apart
    have slope : (intrinsicGreeks f k sigma right).delta = (if k < f then 1 else 0) - legs right 1 := by
      rw [intrinsic_delta]
      rcases apart.lt_or_gt with below | above
      · rw [if_pos below]
      · rw [if_pos above, if_pos above]
    rw [slope]
    simp only [price_expired]
    exact (payoff_slope apart).sub (legs_slope f k right)
  · rintro rfl
    rw [intrinsic_delta, if_neg (lt_irrefl f), if_neg (lt_irrefl f)]

theorem greeks_sensitivities (finite : ℝ → Bool) (f k t sigma r multiplier : ℝ) (right : Char) :
    let fn : Elementary ℝ := { realFunctions with isFinite := finite }
    let live := liveGreeks realFunctions f k t sigma r right multiplier
    GreeksSound f k t sigma r right multiplier
      (finite live.delta && finite live.gamma && finite live.theta && finite live.vega)
      (computeGreeks fn f k t sigma r right multiplier) := by
  intro fn live
  constructor
  · intro priced inRange
    rw [computeGreeks_live r right fn multiplier priced inRange]
    exact priced_sensitivities multiplier priced
  · intro dead
    rw [computeGreeks_dead r right fn multiplier dead]
    exact intrinsic_sound

end Real

end Corsair.Black
