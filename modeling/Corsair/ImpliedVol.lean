import Corsair.Greeks
import Mathlib.Analysis.Calculus.Deriv.MeanValue
import Mathlib.Analysis.SpecialFunctions.Log.Deriv

namespace Corsair.Black

open Filter Set Topology
open StandardNormal (cdf pdf)
open Sabr (realFunctions)

section Forward

variable {f k : ℝ}

theorem forwardCall_strictMono (forward : 0 < f) (strike : 0 < k) : StrictMonoOn (forwardCall f k) (Ioi 0) := by
  apply strictMonoOn_of_deriv_pos (convex_Ioi 0)
  · intro w positive
    exact (forwardCall_width forward strike (ne_of_gt positive)).continuousAt.continuousWithinAt
  · intro w positive
    rw [interior_Ioi] at positive
    rw [(forwardCall_width forward strike (ne_of_gt positive)).deriv]
    exact mul_pos forward (StandardNormal.pdf_pos _)

-- As the volatility vanishes, both legs of the payoff are certain.
theorem forwardCall_vanishing (forward : 0 < f) (strike : 0 < k) :
    Tendsto (forwardCall f k) (𝓝[>] 0) (𝓝 (max (f - k) 0)) := by
  have half : Tendsto (fun w : ℝ => w / 2) (𝓝[>] 0) (𝓝 0) := by
    have limit : Tendsto (fun w : ℝ => w / 2) (𝓝 0) (𝓝 (0 / 2)) := (continuous_id.div_const 2).tendsto 0
    rw [zero_div] at limit
    exact limit.mono_left nhdsWithin_le_nhds
  have whole : Tendsto (fun w : ℝ => w) (𝓝[>] 0) (𝓝 0) := tendsto_id.mono_left nhdsWithin_le_nhds
  have certain (level : ℝ) {d : Filter ℝ} (away : Tendsto (moneyness f k) (𝓝[>] 0) d)
      (shifted : Tendsto (fun w => moneyness f k w - w) (𝓝[>] 0) d) (limit : Tendsto cdf d (𝓝 level)) :
      Tendsto (forwardCall f k) (𝓝[>] 0) (𝓝 (f * level - k * level)) :=
    ((limit.comp away).const_mul f).sub ((limit.comp shifted).const_mul k)
  rcases lt_trichotomy f k with below | same | above
  · have negative : Real.log (f / k) < 0 := Real.log_neg (div_pos forward strike) ((div_lt_one strike).mpr below)
    have drift : Tendsto (fun w => Real.log (f / k) / w) (𝓝[>] 0) atBot :=
      tendsto_inv_nhdsGT_zero.const_mul_atTop_of_neg negative
    have away := drift.atBot_add half
    have level := certain 0 away (away.atBot_add whole.neg) (ProbabilityTheory.tendsto_cdf_atBot _)
    rw [max_eq_right (by linarith)]
    simpa using level
  · have none : Real.log (f / k) = 0 := by
      rw [same, div_self strike.ne', Real.log_one]
    have away : Tendsto (moneyness f k) (𝓝[>] 0) (𝓝 0) := by
      unfold moneyness
      simpa [none] using half
    have shifted : Tendsto (fun w => moneyness f k w - w) (𝓝[>] 0) (𝓝 0) := by
      simpa using away.sub whole
    have level := certain _ away shifted (StandardNormal.cdf_continuous.tendsto 0)
    rw [same, sub_self, max_self]
    simpa [same] using level
  · have positive : 0 < Real.log (f / k) := Real.log_pos ((one_lt_div strike).mpr above)
    have drift : Tendsto (fun w => Real.log (f / k) / w) (𝓝[>] 0) atTop :=
      tendsto_inv_nhdsGT_zero.const_mul_atTop positive
    have away := drift.atTop_add half
    have level := certain 1 away (away.atTop_add whole.neg) (ProbabilityTheory.tendsto_cdf_atTop _)
    rw [max_eq_left (by linarith)]
    simpa using level

theorem forwardCall_intrinsic (forward : 0 < f) (strike : 0 < k) {w : ℝ} (positive : 0 < w) :
    max (f - k) 0 < forwardCall f k w := by
  have rising := forwardCall_strictMono forward strike
  have least : max (f - k) 0 ≤ forwardCall f k (w / 2) := by
    apply le_of_tendsto (forwardCall_vanishing forward strike)
    filter_upwards [Ioo_mem_nhdsGT (half_pos positive)] with x between
    exact (rising between.1 (half_pos positive) between.2).le
  exact least.trans_lt (rising (half_pos positive) positive (half_lt_self positive))

-- No steeper than the highest density.
theorem forwardCall_steep (forward : 0 < f) (strike : 0 < k) {v w : ℝ} (positive : 0 < v) (other : 0 < w) :
    |forwardCall f k w - forwardCall f k v| ≤ f * pdf 0 * |w - v| := by
  have slope : ∀ x ∈ Ioi (0 : ℝ), HasDerivWithinAt (forwardCall f k) (f * pdf (moneyness f k x)) (Ioi 0) x := by
    intro x member
    exact (forwardCall_width forward strike (ne_of_gt member)).hasDerivWithinAt
  have bound : ∀ x ∈ Ioi (0 : ℝ), ‖f * pdf (moneyness f k x)‖ ≤ f * pdf 0 := by
    intro x _
    rw [Real.norm_of_nonneg (mul_pos forward (StandardNormal.pdf_pos _)).le]
    exact mul_le_mul_of_nonneg_left (StandardNormal.pdf_le _) forward.le
  exact Convex.norm_image_sub_le_of_norm_hasDerivWithin_le slope bound (convex_Ioi 0) positive other

theorem forwardCall_near (forward : 0 < f) (strike : 0 < k) {w : ℝ} (positive : 0 < w) :
    |forwardCall f k w - max (f - k) 0| ≤ f * pdf 0 * w := by
  have level := mul_pos forward (StandardNormal.pdf_pos 0)
  apply le_of_tendsto ((tendsto_const_nhds.sub (forwardCall_vanishing forward strike)).abs)
  filter_upwards [Ioo_mem_nhdsGT positive] with v between
  refine (forwardCall_steep forward strike between.1 positive).trans ?_
  rw [abs_of_pos (sub_pos.mpr between.2)]
  exact mul_le_mul_of_nonneg_left (sub_le_self _ between.1.le) level.le

-- The undiscounted value, with what it is where there is no volatility.
noncomputable def forwardValue (f k w : ℝ) : ℝ := if 0 < w then forwardCall f k w else max (f - k) 0

theorem forwardValue_lipschitz (forward : 0 < f) (strike : 0 < k) (v w : ℝ) :
    |forwardValue f k w - forwardValue f k v| ≤ f * pdf 0 * |w - v| := by
  have level := mul_pos forward (StandardNormal.pdf_pos 0)
  unfold forwardValue
  rcases lt_or_ge 0 v with positive | none <;> rcases lt_or_ge 0 w with other | nothing
  · rw [if_pos positive, if_pos other]
    exact forwardCall_steep forward strike positive other
  · rw [if_pos positive, if_neg nothing.not_gt, abs_sub_comm]
    refine (forwardCall_near forward strike positive).trans ?_
    apply mul_le_mul_of_nonneg_left _ level.le
    rw [abs_of_nonpos (by linarith)]
    linarith
  · rw [if_neg none.not_gt, if_pos other]
    refine (forwardCall_near forward strike other).trans ?_
    apply mul_le_mul_of_nonneg_left _ level.le
    rw [abs_of_pos (by linarith)]
    linarith
  · rw [if_neg none.not_gt, if_neg nothing.not_gt, sub_self, abs_zero]
    positivity

end Forward

section Price

variable {f k t : ℝ} {r : ℝ} {right : String}

-- An expired option, or one without a forward or a strike, is worth the same at every volatility.
def Live (f k t : ℝ) : Prop := 0 < t ∧ 0 < f ∧ 0 < k

theorem price_flat (dead : ¬Live f k t) (sigma other : ℝ) :
    black76Price realFunctions f k t sigma r right = black76Price realFunctions f k t other r right := by
  unfold Live at dead
  simp only [not_and_or, not_lt] at dead
  have always (x : ℝ) : t ≤ 0 ∨ x ≤ 0 ∨ f ≤ 0 ∨ k ≤ 0 := by
    rcases dead with expired | noForward | noStrike
    · exact .inl expired
    · exact .inr (.inr (.inl noForward))
    · exact .inr (.inr (.inr noStrike))
  unfold black76Price black76PriceInner
  rw [if_pos (always sigma), if_pos (always other)]

variable (r right) in
theorem price_continuous (live : Live f k t) :
    ContinuousOn (fun sigma => black76Price realFunctions f k t sigma r right) (Ioi 0) := by
  intro sigma positive
  exact (price_vol live.2.1 live.2.2 live.1 positive).continuousAt.continuousWithinAt

variable (r right) in
theorem price_strictMono (live : Live f k t) :
    StrictMonoOn (fun sigma => black76Price realFunctions f k t sigma r right) (Ioi 0) := by
  obtain ⟨time, forward, strike⟩ := live
  apply strictMonoOn_of_deriv_pos (convex_Ioi 0) (price_continuous r right ⟨time, forward, strike⟩)
  intro sigma positive
  rw [interior_Ioi] at positive
  unfold black76Price
  rw [(price_vol forward strike time positive).deriv]
  have root := Real.sqrt_pos.mpr time
  have density := StandardNormal.pdf_pos (moneyness f k (sigma * √t))
  positivity

-- Without discounting a price moves no faster with its volatility than the forward at
-- the highest density, over all the volatilities there are.
variable (right) in
theorem price_lipschitz (live : Live f k t) (a b : ℝ) :
    |black76Price realFunctions f k t a 0 right - black76Price realFunctions f k t b 0 right| ≤
      f * √t * pdf 0 * |a - b| := by
  obtain ⟨time, forward, strike⟩ := live
  have root := Real.sqrt_pos.mpr time
  have valued (sigma : ℝ) : black76Price realFunctions f k t sigma 0 right =
      forwardValue f k (sigma * √t) - legs (if isCall right then 'C' else 'P') (f - k) := by
    unfold black76Price forwardValue
    rcases lt_or_ge 0 sigma with vol | none
    · rw [price_forwardCall _ _ forward strike time vol, if_pos (mul_pos vol root)]
      simp
    · rw [if_neg (mul_nonpos_of_nonpos_of_nonneg none root.le).not_gt]
      unfold black76PriceInner legs isCallChar
      cases isCall right
      · have parity := max_zero_sub_max_neg_zero_eq_self (f - k)
        rw [neg_sub] at parity
        simp [none]
        linarith
      · simp [none]
  rw [valued, valued, sub_sub_sub_cancel_right]
  refine (forwardValue_lipschitz forward strike _ _).trans_eq ?_
  rw [← sub_mul, abs_mul, abs_of_pos root]
  ring

theorem isCallChar_side (right : String) : isCallChar (if isCall right then 'C' else 'P') = isCall right := by
  cases isCall right <;> rfl

theorem price_call (live : Live f k t) {sigma : ℝ} (vol : 0 < sigma) :
    black76Price realFunctions f k t sigma r right =
      Real.exp (-r * t) * (forwardCall f k (sigma * √t) - if isCall right then 0 else f - k) := by
  unfold black76Price
  rw [price_forwardCall r _ live.2.1 live.2.2 live.1 vol]
  unfold legs
  rw [isCallChar_side]

variable (r right) in
theorem price_intrinsic (live : Live f k t) {sigma : ℝ} (vol : 0 < sigma) :
    Real.exp (-r * t) * intrinsic f k right < black76Price realFunctions f k t sigma r right := by
  have above := forwardCall_intrinsic live.2.1 live.2.2 (mul_pos vol (Real.sqrt_pos.mpr live.1))
  rw [price_call live vol]
  apply mul_lt_mul_of_pos_left _ (Real.exp_pos _)
  unfold intrinsic
  split
  · rwa [sub_zero]
  · apply max_lt
    · linarith [le_max_right (f - k) 0]
    · linarith [le_max_left (f - k) 0]

end Price

section Search

theorem low_vol : (0 : ℝ) < 1/100 := by norm_num

theorem high_vol : (1/100 : ℝ) < 5 := by norm_num

variable (p f k t r : ℝ) (right : String)

noncomputable def searched : Except Brent.Fault (Brent.Run ℝ) :=
  Brent.brent (fun sigma => black76Price realFunctions f k t sigma r right - p) (1/100) 5 (1/10^6) 100

variable {p f k t r right}

theorem searched_dead (dead : ¬Live f k t) : searched p f k t r right = .ok ⟨none, [1/100, 5], [], false⟩ := by
  apply Brent.brent_rejected
  simp only [price_flat dead (1/100) 5]
  exact mul_self_nonneg _

-- A quote the guards turn away is below every price the search could meet.
theorem searched_below (live : Live f k t) (low : p ≤ black76Price realFunctions f k t (1/100) r right) :
    searched p f k t r right = .ok ⟨none, [1/100, 5], [], false⟩ := by
  have rising := price_strictMono r right live low_vol (low_vol.trans high_vol) high_vol
  apply Brent.brent_rejected
  apply mul_nonneg (sub_nonneg.mpr low)
  exact sub_nonneg.mpr (low.trans rising.le)

-- The guards before the search change nothing.
theorem impliedVol_search :
    impliedVol realFunctions p f k t r right = (searched p f k t r right).map (·.result) := by
  by_cases live : Live f k t
  · have price := price_intrinsic r right live low_vol
    have worth : 0 ≤ Real.exp (-r * t) * intrinsic f k right := by
      apply mul_nonneg (Real.exp_pos _).le
      unfold intrinsic
      split <;> exact le_max_right _ _
    unfold impliedVol
    by_cases empty : t ≤ 0 ∨ p ≤ 0
    · have low : p ≤ 0 := empty.resolve_left (not_le.mpr live.1)
      rw [if_pos empty, searched_below live (by linarith)]
      rfl
    · rw [if_neg empty]
      simp only
      split
      · rename_i under
        change p < Real.exp (-r * t) * _ - _ at under
        rw [searched_below live (by linarith)]
        rfl
      · unfold searched
        cases Brent.brent (fun sigma => black76Price realFunctions f k t sigma r right - p) (1/100) 5 (1/10^6) 100 <;> rfl
  · rw [searched_dead live]
    unfold impliedVol
    split
    · rfl
    · simp only
      split
      · rfl
      · have dead := @searched_dead p f k t r right live
        unfold searched at dead
        rw [dead]
        rfl

-- A bracketed quote is the price at exactly one volatility.
theorem quoted_vol (live : Live f k t) (low : black76Price realFunctions f k t (1/100) r right < p)
    (high : p < black76Price realFunctions f k t 5 r right) :
    ∃ sigma ∈ Ioo (1/100) 5, black76Price realFunctions f k t sigma r right = p := by
  have inside : Icc (1/100 : ℝ) 5 ⊆ Ioi 0 := fun x member => low_vol.trans_le member.1
  have every := intermediate_value_Ioo high_vol.le ((price_continuous r right live).mono inside)
  exact every ⟨low, high⟩

-- What a search may be relied on for, unless it has used up its hundred iterations.
structure Implied (p f k t r : ℝ) (right : String) (run : Brent.Run ℝ) : Prop where
  found : run.result.isSome ↔ 0 < t ∧ 0 < f ∧ 0 < k ∧
    black76Price realFunctions f k t (1/100) r right < p ∧ p < black76Price realFunctions f k t 5 r right
  within : ∀ iv ∈ run.result, 1/100 ≤ iv ∧ iv ≤ 5
  search : Brent.BrentSound (fun sigma => black76Price realFunctions f k t sigma r right - p) (1/100) 5 (1/10^6) 100 run
  inverts : run.exhausted = true ∧ run.starts.length = 100 ∨ ∀ iv ∈ run.result, ∃ sigma, 0 < sigma ∧
    black76Price realFunctions f k t sigma r right = p ∧ |iv - sigma| < 1/10^6 ∧
    ∀ other, 0 < other → black76Price realFunctions f k t other r right = p → other = sigma

theorem opposite_near (live : Live f k t) {iv y sigma : ℝ} (found : 0 < iv) (far : 0 < y) (vol : 0 < sigma)
    (priced : black76Price realFunctions f k t sigma r right = p)
    (opposite : (black76Price realFunctions f k t iv r right - p) *
      (black76Price realFunctions f k t y r right - p) < 0) : |iv - sigma| < |iv - y| := by
  have order {a b : ℝ} (x : 0 < a) (z : 0 < b) := (price_strictMono r right live).lt_iff_lt (mem_Ioi.mpr x) (mem_Ioi.mpr z)
  rw [← priced] at opposite
  rcases mul_neg_iff.mp opposite with ⟨above, below⟩ | ⟨below, above⟩
  · have down := (order vol found).mp (sub_pos.mp above)
    have up := (order far vol).mp (sub_neg.mp below)
    rw [abs_of_pos (sub_pos.mpr down), abs_of_pos (sub_pos.mpr (up.trans down))]
    linarith
  · have up := (order found vol).mp (sub_neg.mp below)
    have down := (order vol far).mp (sub_pos.mp above)
    rw [abs_of_neg (sub_neg.mpr up), abs_of_neg (sub_neg.mpr (up.trans down))]
    linarith

theorem bracketed_implied (live : Live f k t) (low : black76Price realFunctions f k t (1/100) r right < p)
    (high : p < black76Price realFunctions f k t 5 r right) :
    ∃ run, searched p f k t r right = .ok run ∧ Implied p f k t r right run := by
  have strict : (black76Price realFunctions f k t (1/100) r right - p) *
      (black76Price realFunctions f k t 5 r right - p) < 0 :=
    mul_neg_of_neg_of_pos (sub_neg.mpr low) (sub_pos.mpr high)
  obtain ⟨run, x, ran, sound, result⟩ := Brent.brent_bracketed
    (f := fun sigma => black76Price realFunctions f k t sigma r right - p) strict (1/10^6) 100
  have held := sound.held
  have stopped := sound.early
  rw [uIcc_of_le high_vol.le] at held stopped
  refine ⟨run, ran, ?_⟩
  constructor
  · rw [result]
    exact ⟨fun _ => ⟨live.1, live.2.1, live.2.2, low, high⟩, fun _ => rfl⟩
  · exact held
  · exact sound
  · cases exhausted : run.exhausted with
    | true => exact .inl ⟨rfl, (sound.spent exhausted).1⟩
    | false =>
      right
      intro iv found
      obtain ⟨sigma, between, priced⟩ := quoted_vol live low high
      have vol : 0 < sigma := low_vol.trans between.1
      have only (other : ℝ) (positive : 0 < other) (also : black76Price realFunctions f k t other r right = p) :
          other = sigma :=
        (price_strictMono r right live).injOn positive vol (also.trans priced.symm)
      refine ⟨sigma, vol, priced, ?_, only⟩
      have positive : 0 < iv := low_vol.trans_le (held iv found).1
      rcases stopped exhausted iv found with root | ⟨y, other, near, opposite⟩
      · rw [only iv positive (sub_eq_zero.mp root), sub_self, abs_zero]
        positivity
      · exact (opposite_near live positive (low_vol.trans_le other.1) vol priced opposite).trans near

theorem unbracketed_implied (outside : ¬(Live f k t ∧ black76Price realFunctions f k t (1/100) r right < p ∧
    p < black76Price realFunctions f k t 5 r right)) :
    ∃ run, searched p f k t r right = .ok run ∧ Implied p f k t r right run := by
  have unbracketed : 0 ≤ (black76Price realFunctions f k t (1/100) r right - p) *
      (black76Price realFunctions f k t 5 r right - p) := by
    by_cases live : Live f k t
    · rcases le_or_gt p (black76Price realFunctions f k t (1/100) r right) with low | above
      · have rising := price_strictMono r right live low_vol (low_vol.trans high_vol) high_vol
        exact mul_nonneg (sub_nonneg.mpr low) (sub_nonneg.mpr (low.trans rising.le))
      · have high := not_lt.mp fun high => outside ⟨live, above, high⟩
        exact mul_nonneg_of_nonpos_of_nonpos (sub_nonpos.mpr above.le) (sub_nonpos.mpr high)
    · rw [price_flat live (1/100) 5]
      exact mul_self_nonneg _
  refine ⟨_, Brent.brent_rejected unbracketed (1/10^6) 100, ?_⟩
  constructor
  · constructor
    · simp
    · intro given
      obtain ⟨time, forward, strike, rest⟩ := given
      exact absurd ⟨⟨time, forward, strike⟩, rest⟩ outside
  · simp
  · exact Brent.rejected_sound unbracketed (1/10^6) 100
  · simp

theorem searched_implied (p f k t r : ℝ) (right : String) :
    ∃ run, searched p f k t r right = .ok run ∧ Implied p f k t r right run := by
  by_cases bracketed : Live f k t ∧ black76Price realFunctions f k t (1/100) r right < p ∧
      p < black76Price realFunctions f k t 5 r right
  · obtain ⟨live, low, high⟩ := bracketed
    exact bracketed_implied live low high
  · exact unbracketed_implied bracketed

theorem impliedVol_inverts (p f k t r : ℝ) (right : String) : ∃ run, searched p f k t r right = .ok run ∧
    impliedVol realFunctions p f k t r right = .ok run.result ∧ Implied p f k t r right run := by
  obtain ⟨run, ran, implied⟩ := searched_implied p f k t r right
  refine ⟨run, ran, ?_, implied⟩
  rw [impliedVol_search, ran]
  rfl

end Search

section Parity

variable {f k t : ℝ} {call put : String}

theorem price_parity (live : Live f k t) (r : ℝ) {sigma : ℝ} (vol : 0 < sigma) (isC : isCall call = true)
    (isP : isCall put = false) :
    black76Price realFunctions f k t sigma r call - black76Price realFunctions f k t sigma r put =
      Real.exp (-r * t) * (f - k) := by
  rw [price_call live vol, price_call live vol, isC, isP, if_pos rfl, if_neg Bool.false_ne_true]
  ring

-- The two searches see the same function wherever they look.
theorem impliedVol_parity (p f k t r : ℝ) (isC : isCall call = true) (isP : isCall put = false) :
    impliedVol realFunctions p f k t r call = impliedVol realFunctions (p - Real.exp (-r * t) * (f - k)) f k t r put := by
  rw [impliedVol_search, impliedVol_search]
  congr 1
  by_cases live : Live f k t
  · apply Brent.brent_congr
    intro sigma member
    rw [uIcc_of_le high_vol.le] at member
    have parity := price_parity live r (low_vol.trans_le member.1) isC isP
    linarith
  · rw [searched_dead live, searched_dead live]

-- The greeks of a call and a put on one strike.
structure GreekParity (k t r multiplier : ℝ) (call put : GreeksOut ℝ) : Prop where
  delta : call.delta - put.delta = Real.exp (-r * t)
  bounds : 0 < call.delta ∧ put.delta < 0
  gamma : call.gamma = put.gamma ∧ (0 < multiplier → 0 < call.gamma)
  vega : call.vega = put.vega ∧ (0 < multiplier → 0 < call.vega)
  theta : call.theta - put.theta = -(r * k * Real.exp (-r * t)) / 365 * multiplier

-- The same of the intrinsic greeks, which know no interest.
structure IntrinsicParity (call put : GreeksOut ℝ) : Prop where
  delta : call.delta - put.delta = 1
  bounds : 0 ≤ call.delta ∧ put.delta ≤ 0
  flat : call.gamma = put.gamma ∧ call.vega = put.vega ∧ call.theta = put.theta

-- A call and a put on one strike, apart by a forward.
structure Parity (f k t sigma r multiplier : ℝ) (call put : String) (ofCall ofPut : GreeksOut ℝ) : Prop where
  price : black76Price realFunctions f k t sigma r call - black76Price realFunctions f k t sigma r put =
    Real.exp (-r * t) * (f - k)
  impliedVol : ∀ p, impliedVol realFunctions p f k t r call =
    impliedVol realFunctions (p - Real.exp (-r * t) * (f - k)) f k t r put
  greeks : 1/10^10 ≤ t → GreekParity k t r multiplier ofCall ofPut
  intrinsic : t < 1/10^10 → IntrinsicParity ofCall ofPut

theorem densityScale_pos : 0 < densityScale := by
  unfold densityScale invSqrt2Pi
  positivity

theorem live_parity (r multiplier : ℝ) {sigma : ℝ} {c p : Char} (priced : Priced f k t sigma)
    (charC : isCallChar c = true) (charP : isCallChar p = false) :
    GreekParity k t r multiplier (liveGreeks realFunctions f k t sigma r c multiplier)
      (liveGreeks realFunctions f k t sigma r p multiplier) := by
  have positive := priced_positive priced
  obtain ⟨time, vol, forward, strike⟩ := priced
  have root := Real.sqrt_pos.mpr positive
  have scale := densityScale_pos
  have density := StandardNormal.pdf_pos (moneyness f k (sigma * √t))
  have discount := Real.exp_pos (-r * t)
  have level := StandardNormal.cdf_pos (moneyness f k (sigma * √t))
  have rest := StandardNormal.cdf_lt_one (moneyness f k (sigma * √t))
  rw [greeks_closed r c multiplier positive vol, greeks_closed r p multiplier positive vol]
  unfold legs
  rw [charC, charP]
  simp only [if_true, Bool.false_eq_true, if_false]
  constructor
  · ring
  · constructor
    · simpa using mul_pos discount level
    · exact mul_neg_of_pos_of_neg discount (by linarith)
  · refine ⟨rfl, ?_⟩
    intro lots
    positivity
  · refine ⟨rfl, ?_⟩
    intro lots
    positivity
  · ring

theorem intrinsic_parity {sigma : ℝ} {c p : Char} (charC : isCallChar c = true) (charP : isCallChar p = false) :
    IntrinsicParity (intrinsicGreeks f k sigma c) (intrinsicGreeks f k sigma p) := by
  have bounds : (0 : ℝ) ≤ (if k < f then 1 else if f < k then 0 else 1/2) ∧
      (if k < f then (1 : ℝ) else if f < k then 0 else 1/2) ≤ 1 := by
    split_ifs <;> norm_num
  refine ⟨?_, ?_, rfl, rfl, rfl⟩
  · rw [intrinsic_delta, intrinsic_delta, legs, legs, charC, charP, if_pos rfl, if_neg Bool.false_ne_true]
    ring
  · rw [intrinsic_delta, intrinsic_delta, legs, legs, charC, charP, if_pos rfl, if_neg Bool.false_ne_true, sub_zero]
    exact ⟨bounds.1, sub_nonpos.mpr bounds.2⟩

theorem put_call_parity (r multiplier : ℝ) {sigma : ℝ} {c p : Char} (forward : 0 < f) (strike : 0 < k)
    (time : 0 < t) (vol : 0 < sigma) (isC : isCall call = true) (isP : isCall put = false)
    (charC : isCallChar c = true) (charP : isCallChar p = false) :
    Parity f k t sigma r multiplier call put (computeGreeks realFunctions f k t sigma r c multiplier)
      (computeGreeks realFunctions f k t sigma r p multiplier) := by
  constructor
  · exact price_parity ⟨time, forward, strike⟩ r vol isC isP
  · intro quote
    exact impliedVol_parity quote f k t r isC isP
  · intro late
    have priced : Priced f k t sigma := ⟨late, vol, forward, strike⟩
    rw [computeGreeks_priced r c multiplier priced, computeGreeks_priced r p multiplier priced]
    exact live_parity r multiplier priced charC charP
  · intro early
    have dead (right : Char) : computeGreeks realFunctions f k t sigma r right multiplier =
        intrinsicGreeks f k sigma right :=
      computeGreeks_dead r right realFunctions multiplier fun both => not_lt.mpr both.1.time early
    rw [dead c, dead p]
    exact intrinsic_parity charC charP

theorem put_call_parity_atm : Parity 6 6 (1/8) (1/2) 0 25000 "C" "P"
    (computeGreeks realFunctions 6 6 (1/8) (1/2) 0 'C' 25000) (computeGreeks realFunctions 6 6 (1/8) (1/2) 0 'P' 25000) :=
  put_call_parity 0 25000 (by norm_num) (by norm_num) (by norm_num) (by norm_num) rfl rfl rfl rfl

end Parity

end Corsair.Black
