import Corsair.Lib.Numeral
import Corsair.Lib.Register
import Corsair.Lib.Worst
import Mathlib.Algebra.BigOperators.Group.List.Basic
import Mathlib.Algebra.BigOperators.Ring.Finset
import Mathlib.Algebra.BigOperators.Ring.List
import Mathlib.Algebra.Order.BigOperators.Group.List
import Mathlib.Algebra.Order.Field.Rat
import Mathlib.Data.Fin.VecNotation
import Mathlib.Data.List.FinRange
import Mathlib.Tactic.Linarith
import Mathlib.Tactic.Ring

namespace Corsair.Span

section Margin

variable {𝕜 : Type*} [Field 𝕜] [LinearOrder 𝕜]

-- span.rs
def PRICE_FRACS : Fin 14 → 𝕜 :=
  ![0, 0, 1/3, 1/3, -1/3, -1/3, 2/3, 2/3, -2/3, -2/3, 1, 1, -1, -1]

def VOL_SIGNS : Fin 14 → 𝕜 :=
  ![1, -1, 1, -1, 1, -1, 1, -1, 1, -1, 1, -1, 1, -1]

structure SpanConfig (𝕜 : Type*) where
  upScanPct : 𝕜
  downScanPct : 𝕜
  volScanPct : 𝕜
  extremeMult : 𝕜
  extremeCover : 𝕜
  shortOptionMinimum : 𝕜
  multiplier : 𝕜

-- (f, k, t, iv, r, right), as black76_price_inner takes them.
abbrev OptionPrice (𝕜 : Type*) := 𝕜 → 𝕜 → 𝕜 → 𝕜 → 𝕜 → Char → 𝕜

structure Contract (𝕜 : Type*) where
  strike : 𝕜
  right : Char
  t : 𝕜
  iv : 𝕜

structure SpanPosition (𝕜 : Type*) extends Contract 𝕜 where
  qty : ℤ

variable (price : OptionPrice 𝕜) (f : 𝕜) (cfg : SpanConfig 𝕜)

-- The loss of one long contract in each scenario.
def positionRiskArray (c : Contract 𝕜) : Fin 16 → 𝕜 :=
  if f ≤ 0 ∨ c.t ≤ 0 ∨ c.iv ≤ 0 then fun _ => 0
  else
    let base := price f c.strike c.t c.iv 0 c.right
    let upScan := f * cfg.upScanPct
    let downScan := f * cfg.downScanPct
    let volScan := c.iv * cfg.volScanPct
    fun i =>
      if scanned : i.val < 14 then
        let frac : 𝕜 := PRICE_FRACS ⟨i, scanned⟩
        let shift := if 0 ≤ frac then frac * upScan else frac * downScan
        let fScen := max (f + shift) 1
        let ivScen := max (c.iv + VOL_SIGNS ⟨i, scanned⟩ * volScan) (1/100)
        let p := price fScen c.strike c.t ivScen 0 c.right;
        -(p - base) * cfg.multiplier
      else if i.val = 14 then
        let fUp := max (f + cfg.extremeMult * upScan) 1
        let pUp := price fUp c.strike c.t c.iv 0 c.right;
        -(pUp - base) * cfg.multiplier * cfg.extremeCover
      else
        let fDn := max (f - cfg.extremeMult * downScan) 1
        let pDn := price fDn c.strike c.t c.iv 0 c.right;
        -(pDn - base) * cfg.multiplier * cfg.extremeCover

structure PortfolioMargin (𝕜 : Type*) where
  scanRisk : 𝕜
  netOptionValue : 𝕜
  longPremium : 𝕜
  shortMinimum : 𝕜
  totalMargin : 𝕜
  worstScenario : ℕ

structure Sums (𝕜 : Type*) where
  portfolio : Fin 16 → 𝕜
  nov : 𝕜
  longPremium : 𝕜
  shortCount : ℕ

def Sums.zero : Sums 𝕜 := ⟨fun _ => 0, 0, 0, 0⟩

def Sums.addPosition (sums : Sums 𝕜) (p : SpanPosition 𝕜) : Sums 𝕜 :=
  if p.qty = 0 ∨ p.t ≤ 0 ∨ p.iv ≤ 0 then sums
  else
    let ra := positionRiskArray price f cfg p.toContract
    let base := price f p.strike p.t p.iv 0 p.right
    { portfolio := fun i => sums.portfolio i + ra i * p.qty
      nov := sums.nov + base * p.qty * cfg.multiplier
      longPremium := if 0 < p.qty then sums.longPremium + base * p.qty * cfg.multiplier else sums.longPremium
      shortCount := if 0 < p.qty then sums.shortCount else sums.shortCount + p.qty.natAbs }

def sumsOf (positions : List (SpanPosition 𝕜)) : Sums 𝕜 :=
  positions.foldl (Sums.addPosition price f cfg) .zero

-- The worst loss, if any scenario loses, and its number counted from one.
def worst (portfolio : Fin 16 → 𝕜) : 𝕜 × ℕ :=
  ((List.finRange 16).map fun i => (portfolio i, i.val + 1)).foldl (Worst.keep Prod.fst) (0, 0)

def Sums.margin (sums : Sums 𝕜) : PortfolioMargin 𝕜 :=
  let scanRisk := max (worst sums.portfolio).1 0
  let shortMin := sums.shortCount * cfg.shortOptionMinimum
  let riskMargin := max (scanRisk - sums.nov) 0
  { scanRisk := scanRisk
    netOptionValue := sums.nov
    longPremium := sums.longPremium
    shortMinimum := shortMin
    totalMargin := max (max riskMargin shortMin) sums.longPremium
    worstScenario := if 0 < scanRisk then (worst sums.portfolio).2 else 0 }

def portfolioMargin (positions : List (SpanPosition 𝕜)) : PortfolioMargin 𝕜 :=
  (sumsOf price f cfg positions).margin cfg

-- What a book holds of a contract, weighed by a figure of the contract: the scenario
-- losses and the net value weigh signed quantities, the premium the bought ones, and
-- the minimum the sold ones.
section Exposure

def exposure (figure : Contract 𝕜 → 𝕜) (held : ℤ → ℤ) (positions : List (SpanPosition 𝕜)) : 𝕜 :=
  (positions.map fun p => figure p.toContract * (held p.qty : 𝕜)).sum

variable (figure : Contract 𝕜 → 𝕜) (held : ℤ → ℤ)

omit [LinearOrder 𝕜] in
theorem exposure_perm {a b : List (SpanPosition 𝕜)} (shuffled : a.Perm b) :
    exposure figure held a = exposure figure held b :=
  (shuffled.map _).sum_eq

omit [LinearOrder 𝕜] in
theorem exposure_append (a b : List (SpanPosition 𝕜)) :
    exposure figure held (a ++ b) = exposure figure held a + exposure figure held b := by
  simp [exposure]

def SpanPosition.scale (n : ℕ) (p : SpanPosition 𝕜) : SpanPosition 𝕜 := { p with qty := n * p.qty }

omit [LinearOrder 𝕜] in
theorem exposure_scale {n : ℕ} (homogeneous : ∀ q, held (n * q) = n * held q) (a : List (SpanPosition 𝕜)) :
    exposure figure held (a.map (SpanPosition.scale n)) = n * exposure figure held a := by
  unfold exposure
  rw [List.map_map, ← List.sum_map_mul_left]
  congr 1
  apply List.map_congr_left
  intro p _
  simp only [Function.comp_apply, SpanPosition.scale, homogeneous]
  push_cast
  ring

-- Lots of one position: the same contract, on the position's own side, and together its quantity.
structure Lots (p : SpanPosition 𝕜) (lots : List (SpanPosition 𝕜)) : Prop where
  contract : ∀ lot ∈ lots, lot.toContract = p.toContract
  side : (∀ lot ∈ lots, 0 ≤ lot.qty) ∨ ∀ lot ∈ lots, lot.qty ≤ 0
  qty : (lots.map (·.qty)).sum = p.qty

-- A quantity is counted the same in parts as long as the parts do not cancel.
structure Counts (held : ℤ → ℤ) : Prop where
  zero : held 0 = 0
  bought : ∀ a b, 0 ≤ a → 0 ≤ b → held (a + b) = held a + held b
  sold : ∀ a b, a ≤ 0 → b ≤ 0 → held (a + b) = held a + held b

theorem counts_signed : Counts id := ⟨rfl, fun _ _ _ _ => rfl, fun _ _ _ _ => rfl⟩

theorem counts_bought : Counts (max · 0) := by
  constructor
  · rfl
  · intros
    omega
  · intros
    omega

theorem counts_sold : Counts (fun q => max (-q) 0) := by
  constructor
  · rfl
  · intros
    omega
  · intros
    omega

variable {held}

theorem Counts.sum (side : ℤ → Prop) (flat : side 0) (closed : ∀ a b, side a → side b → side (a + b))
    (zero : held 0 = 0) (additive : ∀ a b, side a → side b → held (a + b) = held a + held b) {qtys : List ℤ}
    (own : ∀ q ∈ qtys, side q) : side qtys.sum ∧ held qtys.sum = (qtys.map held).sum := by
  induction qtys with
  | nil => exact ⟨flat, zero⟩
  | cons q rest next =>
    obtain ⟨later, counted⟩ := next fun other member => own other (List.mem_cons_of_mem _ member)
    have first := own q List.mem_cons_self
    rw [List.sum_cons, List.map_cons, List.sum_cons, ← counted]
    exact ⟨closed q rest.sum first later, additive q rest.sum first later⟩

omit [Field 𝕜] [LinearOrder 𝕜] in
theorem Counts.parts (counts : Counts held) {p : SpanPosition 𝕜} {lots : List (SpanPosition 𝕜)}
    (split : Lots p lots) : held p.qty = ((lots.map (·.qty)).map held).sum := by
  rw [← split.qty]
  rcases split.side with bought | sold
  · refine (Counts.sum (fun q => 0 ≤ q) le_rfl (fun _ _ => add_nonneg) counts.zero counts.bought ?_).2
    simpa using bought
  · refine (Counts.sum (fun q => q ≤ 0) le_rfl (fun _ _ => add_nonpos) counts.zero counts.sold ?_).2
    simpa using sold

omit [LinearOrder 𝕜] in
theorem exposure_lots (counts : Counts held) {p : SpanPosition 𝕜} {lots : List (SpanPosition 𝕜)}
    (split : Lots p lots) : exposure figure held lots = exposure figure held [p] := by
  have own : exposure figure held lots = (lots.map fun lot => figure p.toContract * (held lot.qty : 𝕜)).sum := by
    unfold exposure
    congr 1
    apply List.map_congr_left
    intro lot member
    rw [split.contract lot member]
  rw [own, List.sum_map_mul_left]
  simp [exposure, counts.parts split, Int.cast_list_sum, Function.comp_def]

end Exposure

-- What the loop has summed up, a figure of the contracts each.
section Summed

def premium (c : Contract 𝕜) : 𝕜 :=
  if c.t ≤ 0 ∨ c.iv ≤ 0 then 0 else price f c.strike c.t c.iv 0 c.right * cfg.multiplier

def live (c : Contract 𝕜) : 𝕜 := if c.t ≤ 0 ∨ c.iv ≤ 0 then 0 else 1

variable (a : List (SpanPosition 𝕜))

theorem summed (field : Sums 𝕜 → 𝕜) (figure : Contract 𝕜 → 𝕜) (held : ℤ → ℤ) (empty : field .zero = 0)
    (adds : ∀ sums p, field (sums.addPosition price f cfg p) = field sums + figure p.toContract * (held p.qty : 𝕜)) :
    field (sumsOf price f cfg a) = exposure figure held a := by
  refine (Register.foldl_field _ field adds a .zero).trans ?_
  rw [empty, zero_add]
  rfl

theorem summed_portfolio (i : Fin 16) :
    (sumsOf price f cfg a).portfolio i = exposure (positionRiskArray price f cfg · i) id a := by
  apply summed price f cfg a (·.portfolio i) (positionRiskArray price f cfg · i) id rfl
  intro sums p
  unfold Sums.addPosition
  split
  · rename_i skipped
    rcases skipped with flat | expired | novol
    · simp [flat]
    · simp [positionRiskArray, expired]
    · simp [positionRiskArray, novol]
  · rfl

theorem summed_nov : (sumsOf price f cfg a).nov = exposure (premium price f cfg) id a := by
  apply summed price f cfg a (·.nov) _ _ rfl
  intro sums p
  unfold Sums.addPosition premium
  split
  · rename_i skipped
    rcases skipped with flat | expired | novol
    · simp [flat]
    · simp [expired]
    · simp [novol]
  · rename_i kept
    simp only [(not_or.mp kept).2, if_false, id_eq]
    ring

theorem summed_longPremium :
    (sumsOf price f cfg a).longPremium = exposure (premium price f cfg) (max · 0) a := by
  apply summed price f cfg a (·.longPremium) _ _ rfl
  intro sums p
  unfold Sums.addPosition premium
  split
  · rename_i skipped
    rcases skipped with flat | expired | novol
    · simp [flat]
    · simp [expired]
    · simp [novol]
  · rename_i kept
    by_cases bought : 0 < p.qty
    · simp only [(not_or.mp kept).2, bought, if_true, if_false, max_eq_left bought.le]
      ring
    · simp [bought, max_eq_right (not_lt.mp bought)]

theorem summed_shortCount :
    ((sumsOf price f cfg a).shortCount : 𝕜) = exposure live (fun q => max (-q) 0) a := by
  apply summed price f cfg a (fun sums => (sums.shortCount : 𝕜)) _ _ Nat.cast_zero
  intro sums p
  unfold Sums.addPosition live
  split
  · rename_i skipped
    rcases skipped with flat | expired | novol
    · simp [flat]
    · simp [expired]
    · simp [novol]
  · rename_i kept
    by_cases bought : 0 < p.qty
    · have sold : max (-p.qty) 0 = 0 := by omega
      simp [bought, sold]
    · have sold : (p.qty.natAbs : ℤ) = max (-p.qty) 0 := by omega
      simp only [(not_or.mp kept).2, bought, if_false, one_mul, ← sold]
      rw [Nat.cast_add, Int.cast_natCast]

-- The contracts a book has sold, and what those it has bought are worth, of positions with
-- time and a vol.
def contractsSold (a : List (SpanPosition 𝕜)) : ℤ :=
  ((a.filter fun p => p.qty < 0 ∧ 0 < p.t ∧ 0 < p.iv).map fun p => -p.qty).sum

def premiumBought (a : List (SpanPosition 𝕜)) : 𝕜 :=
  ((a.filter fun p => 0 < p.qty ∧ 0 < p.t ∧ 0 < p.iv).map fun p =>
    price f p.strike p.t p.iv 0 p.right * (p.qty : 𝕜) * cfg.multiplier).sum

def netValue (a : List (SpanPosition 𝕜)) : 𝕜 :=
  ((a.filter fun p => 0 < p.t ∧ 0 < p.iv).map fun p =>
    price f p.strike p.t p.iv 0 p.right * (p.qty : 𝕜) * cfg.multiplier).sum

def scenarioLoss (i : Fin 16) (a : List (SpanPosition 𝕜)) : 𝕜 :=
  (a.map fun p => positionRiskArray price f cfg p.toContract i * (p.qty : 𝕜)).sum

omit [LinearOrder 𝕜] in
theorem exposure_filtered {figure : Contract 𝕜 → 𝕜} {held : ℤ → ℤ} {counts : SpanPosition 𝕜 → Prop}
    [DecidablePred counts] {amount : SpanPosition 𝕜 → 𝕜}
    (own : ∀ p, figure p.toContract * (held p.qty : 𝕜) = if counts p then amount p else 0) :
    exposure figure held a = ((a.filter (counts ·)).map amount).sum := by
  unfold exposure
  simp only [own]
  rw [List.sum_map_ite]
  simp

theorem short_minimum : (portfolioMargin price f cfg a).shortMinimum = contractsSold a * cfg.shortOptionMinimum := by
  have counted : ((sumsOf price f cfg a).shortCount : 𝕜) = (contractsSold a : ℤ) := by
    rw [summed_shortCount, contractsSold, Int.cast_list_sum, List.map_map]
    apply exposure_filtered a
    intro p
    unfold live
    by_cases sold : p.qty < 0
    · have amount : max (-p.qty) 0 = -p.qty := by omega
      by_cases dead : p.t ≤ 0 ∨ p.iv ≤ 0
      · rw [if_pos dead, if_neg (by grind), zero_mul]
      · rw [if_neg dead, if_pos (by grind), one_mul, amount]
        rfl
    · have amount : max (-p.qty) 0 = 0 := by omega
      have apart : ¬(p.qty < 0 ∧ 0 < p.t ∧ 0 < p.iv) := fun counted => sold counted.1
      rw [if_neg apart, amount, Int.cast_zero, mul_zero]
  rw [← counted]
  rfl

theorem long_premium : (portfolioMargin price f cfg a).longPremium = premiumBought price f cfg a := by
  refine (summed_longPremium price f cfg a).trans (exposure_filtered a ?_)
  intro p
  unfold premium
  by_cases bought : 0 < p.qty
  · rw [max_eq_left bought.le]
    by_cases dead : p.t ≤ 0 ∨ p.iv ≤ 0
    · rw [if_pos dead, if_neg (by grind), zero_mul]
    · rw [if_neg dead, if_pos (by grind)]
      ring
  · have apart : ¬(0 < p.qty ∧ 0 < p.t ∧ 0 < p.iv) := fun counted => bought counted.1
    rw [if_neg apart, max_eq_right (not_lt.mp bought), Int.cast_zero, mul_zero]

theorem net_value : (portfolioMargin price f cfg a).netOptionValue = netValue price f cfg a := by
  refine (summed_nov price f cfg a).trans (exposure_filtered a ?_)
  intro p
  unfold premium
  by_cases dead : p.t ≤ 0 ∨ p.iv ≤ 0
  · rw [if_pos dead, if_neg (by grind), zero_mul]
  · rw [if_neg dead, if_pos (by grind), id_eq]
    ring

end Summed

omit [LinearOrder 𝕜] in
theorem sums_ext [CharZero 𝕜] {s t : Sums 𝕜} (portfolio : s.portfolio = t.portfolio)
    (nov : s.nov = t.nov) (longPremium : s.longPremium = t.longPremium)
    (shortCount : (s.shortCount : 𝕜) = t.shortCount) : s = t := by
  cases s
  cases t
  simp_all

theorem worst_le_iff {v : Fin 16 → 𝕜} {limit : 𝕜} : (worst v).1 ≤ limit ↔ 0 ≤ limit ∧ ∀ i, v i ≤ limit := by
  rw [← not_lt, worst, Worst.lt_fold]
  simp

theorem worst_nonneg (v : Fin 16 → 𝕜) : 0 ≤ (worst v).1 := (worst_le_iff.mp le_rfl).1

theorem le_worst (v : Fin 16 → 𝕜) (i : Fin 16) : v i ≤ (worst v).1 := (worst_le_iff.mp le_rfl).2 i

theorem worst_attained (v : Fin 16 → 𝕜) : (worst v).1 = 0 ∨ ∃ i, (worst v).1 = v i := by
  rcases List.mem_cons.mp (Worst.fold_mem Prod.fst ((List.finRange 16).map fun i => (v i, i.val + 1)) (0, 0)) with
    none | some
  · left
    unfold worst
    rw [none]
  · obtain ⟨i, -, same⟩ := List.mem_map.mp some
    right
    refine ⟨i, ?_⟩
    unfold worst
    rw [← same]

-- The scan risk of a book: the worst of its sixteen losses, or none.
theorem scan_risk (price : OptionPrice 𝕜) (f : 𝕜) (cfg : SpanConfig 𝕜) (a : List (SpanPosition 𝕜)) :
    0 ≤ (portfolioMargin price f cfg a).scanRisk ∧
      (∀ i, scenarioLoss price f cfg i a ≤ (portfolioMargin price f cfg a).scanRisk) ∧
      ((portfolioMargin price f cfg a).scanRisk = 0 ∨
        ∃ i, (portfolioMargin price f cfg a).scanRisk = scenarioLoss price f cfg i a) := by
  have risk : (portfolioMargin price f cfg a).scanRisk = (worst (sumsOf price f cfg a).portfolio).1 :=
    max_eq_left (worst_nonneg _)
  have losses (i : Fin 16) : scenarioLoss price f cfg i a = (sumsOf price f cfg a).portfolio i :=
    (summed_portfolio price f cfg a i).symm
  simp only [risk, losses]
  exact ⟨worst_nonneg _, le_worst _, worst_attained _⟩

section Ordered

variable [IsStrictOrderedRing 𝕜]

theorem worst_add (v w : Fin 16 → 𝕜) : (worst fun i => v i + w i).1 ≤ (worst v).1 + (worst w).1 :=
  worst_le_iff.mpr ⟨add_nonneg (worst_nonneg v) (worst_nonneg w), fun i => add_le_add (le_worst v i) (le_worst w i)⟩

theorem worst_scale (n : ℕ) (v : Fin 16 → 𝕜) : (worst fun i => n * v i).1 = n * (worst v).1 := by
  apply le_antisymm
  · refine worst_le_iff.mpr ⟨mul_nonneg n.cast_nonneg (worst_nonneg v), ?_⟩
    intro i
    exact mul_le_mul_of_nonneg_left (le_worst v i) n.cast_nonneg
  · cases n with
    | zero => simpa using worst_nonneg _
    | succ n =>
      have positive : (0 : 𝕜) < (n + 1 : ℕ) := Nat.cast_pos.mpr n.succ_pos
      rw [mul_comm, ← le_div_iff₀ positive]
      refine worst_le_iff.mpr ⟨div_nonneg (worst_nonneg _) positive.le, ?_⟩
      intro i
      rw [le_div_iff₀ positive, mul_comm]
      exact le_worst (fun i => ((n + 1 : ℕ) : 𝕜) * v i) i

theorem sumsOf_congr {a b : List (SpanPosition 𝕜)}
    (same : ∀ figure held, Counts held → exposure figure held a = exposure figure held b) :
    sumsOf price f cfg a = sumsOf price f cfg b := by
  apply sums_ext
  · funext i
    rw [summed_portfolio, summed_portfolio, same _ _ counts_signed]
  · rw [summed_nov, summed_nov, same _ _ counts_signed]
  · rw [summed_longPremium, summed_longPremium, same _ _ counts_bought]
  · rw [summed_shortCount, summed_shortCount, same _ _ counts_sold]

-- The three floors of a book, and no margin below zero.
def floors (risk shortMin longPremium : 𝕜) : 𝕜 := max (max (max risk 0) shortMin) longPremium

omit [IsStrictOrderedRing 𝕜] in
theorem totalMargin_floors (a : List (SpanPosition 𝕜)) :
    (portfolioMargin price f cfg a).totalMargin =
      floors ((worst (sumsOf price f cfg a).portfolio).1 - (sumsOf price f cfg a).nov)
        ((sumsOf price f cfg a).shortCount * cfg.shortOptionMinimum) (sumsOf price f cfg a).longPremium := by
  unfold portfolioMargin Sums.margin floors
  rw [max_eq_left (worst_nonneg _)]

omit [IsStrictOrderedRing 𝕜] in
theorem floors_le {risk shortMin longPremium limit : 𝕜} :
    floors risk shortMin longPremium ≤ limit ↔ risk ≤ limit ∧ 0 ≤ limit ∧ shortMin ≤ limit ∧ longPremium ≤ limit := by
  simp only [floors, max_le_iff, and_assoc]

omit [IsStrictOrderedRing 𝕜] in
theorem le_floors (risk shortMin longPremium : 𝕜) :
    risk ≤ floors risk shortMin longPremium ∧ 0 ≤ floors risk shortMin longPremium ∧
      shortMin ≤ floors risk shortMin longPremium ∧ longPremium ≤ floors risk shortMin longPremium :=
  floors_le.mp le_rfl

theorem floors_add {risk shortMin longPremium risk' shortMin' longPremium' joint : 𝕜} (netted : joint ≤ risk + risk') :
    floors joint (shortMin + shortMin') (longPremium + longPremium') ≤
      floors risk shortMin longPremium + floors risk' shortMin' longPremium' := by
  obtain ⟨risks, positive, shorts, longs⟩ := le_floors risk shortMin longPremium
  obtain ⟨risks', positive', shorts', longs'⟩ := le_floors risk' shortMin' longPremium'
  exact floors_le.mpr ⟨netted.trans (add_le_add risks risks'), add_nonneg positive positive',
    add_le_add shorts shorts', add_le_add longs longs'⟩

theorem floors_scale (n : ℕ) (risk shortMin longPremium : 𝕜) :
    floors (n * risk) (n * shortMin) (n * longPremium) = n * floors risk shortMin longPremium := by
  unfold floors
  have nonneg : (0 : 𝕜) ≤ n := n.cast_nonneg
  rw [mul_max_of_nonneg _ _ nonneg, mul_max_of_nonneg _ _ nonneg, mul_max_of_nonneg _ _ nonneg, mul_zero]

theorem total_append (a b : List (SpanPosition 𝕜)) :
    (portfolioMargin price f cfg (a ++ b)).totalMargin ≤
      (portfolioMargin price f cfg a).totalMargin + (portfolioMargin price f cfg b).totalMargin := by
  have portfolio : (sumsOf price f cfg (a ++ b)).portfolio =
      fun i => (sumsOf price f cfg a).portfolio i + (sumsOf price f cfg b).portfolio i := by
    funext i
    simp only [summed_portfolio, exposure_append]
  have scan := worst_add (sumsOf price f cfg a).portfolio (sumsOf price f cfg b).portfolio
  rw [totalMargin_floors, totalMargin_floors, totalMargin_floors, portfolio]
  simp only [summed_nov, summed_longPremium, summed_shortCount, exposure_append, add_mul]
  apply floors_add
  linarith

theorem total_scale (n : ℕ) (a : List (SpanPosition 𝕜)) :
    (portfolioMargin price f cfg (a.map (SpanPosition.scale n))).totalMargin =
      n * (portfolioMargin price f cfg a).totalMargin := by
  have bought (q : ℤ) : max (n * q) 0 = n * max q 0 := by
    rw [mul_max_of_nonneg _ _ (Int.natCast_nonneg n), mul_zero]
  have sold (q : ℤ) : max (-(n * q)) 0 = n * max (-q) 0 := by
    rw [mul_max_of_nonneg _ _ (Int.natCast_nonneg n), mul_zero, mul_neg]
  have portfolio : (sumsOf price f cfg (a.map (SpanPosition.scale n))).portfolio =
      fun i => n * (sumsOf price f cfg a).portfolio i := by
    funext i
    simp only [summed_portfolio]
    exact exposure_scale _ id (fun _ => rfl) a
  rw [totalMargin_floors, totalMargin_floors, portfolio, worst_scale, ← floors_scale]
  simp only [summed_nov, summed_longPremium, summed_shortCount]
  rw [exposure_scale _ id (fun _ => rfl), exposure_scale _ _ sold, exposure_scale _ _ bought, mul_sub, mul_assoc]

end Ordered

end Margin

-- What a book's margin is made of, and what it keeps when the book is reordered, joined, scaled
-- or cut up.
structure MarginAlgebra {𝕜 : Type*} [Field 𝕜] [LinearOrder 𝕜] (price : OptionPrice 𝕜) (f : 𝕜)
    (cfg : SpanConfig 𝕜) : Prop where
  shuffled : ∀ a b, a.Perm b → portfolioMargin price f cfg a = portfolioMargin price f cfg b
  nonneg : ∀ a, 0 ≤ (portfolioMargin price f cfg a).totalMargin
  sold : ∀ a, (portfolioMargin price f cfg a).shortMinimum = contractsSold a * cfg.shortOptionMinimum
  bought : ∀ a, (portfolioMargin price f cfg a).longPremium = premiumBought price f cfg a
  net : ∀ a, (portfolioMargin price f cfg a).netOptionValue = netValue price f cfg a
  scanned : ∀ a, 0 ≤ (portfolioMargin price f cfg a).scanRisk ∧
    (∀ i, scenarioLoss price f cfg i a ≤ (portfolioMargin price f cfg a).scanRisk) ∧
    ((portfolioMargin price f cfg a).scanRisk = 0 ∨
      ∃ i, (portfolioMargin price f cfg a).scanRisk = scenarioLoss price f cfg i a)
  total : ∀ a, (portfolioMargin price f cfg a).totalMargin =
    max (max (max ((portfolioMargin price f cfg a).scanRisk - netValue price f cfg a) 0)
      (contractsSold a * cfg.shortOptionMinimum)) (premiumBought price f cfg a)
  shortFloor : ∀ a, contractsSold a * cfg.shortOptionMinimum ≤ (portfolioMargin price f cfg a).totalMargin
  longFloor : ∀ a, premiumBought price f cfg a ≤ (portfolioMargin price f cfg a).totalMargin
  subadditive : ∀ a b, (portfolioMargin price f cfg (a ++ b)).totalMargin ≤
    (portfolioMargin price f cfg a).totalMargin + (portfolioMargin price f cfg b).totalMargin
  scaled : ∀ (n : ℕ) a, (portfolioMargin price f cfg (a.map (SpanPosition.scale n))).totalMargin =
    n * (portfolioMargin price f cfg a).totalMargin
  split : ∀ p lots a b, Lots p lots →
    portfolioMargin price f cfg (a ++ lots ++ b) = portfolioMargin price f cfg (a ++ p :: b)

theorem margin_algebra {𝕜 : Type*} [Field 𝕜] [LinearOrder 𝕜] [IsStrictOrderedRing 𝕜] (price : OptionPrice 𝕜) (f : 𝕜)
    (cfg : SpanConfig 𝕜) : MarginAlgebra price f cfg where
  shuffled a b same := by
    unfold portfolioMargin
    rw [sumsOf_congr price f cfg fun figure held _ => exposure_perm figure held same]
  nonneg a := by
    rw [totalMargin_floors]
    exact (le_floors _ _ _).2.1
  sold := short_minimum price f cfg
  bought := long_premium price f cfg
  net := net_value price f cfg
  scanned := scan_risk price f cfg
  total a := by
    rw [← net_value, ← short_minimum price f cfg, ← long_premium]
    rfl
  shortFloor a := by
    rw [← short_minimum price f cfg, totalMargin_floors]
    exact (le_floors _ _ _).2.2.1
  longFloor a := by
    rw [← long_premium, totalMargin_floors]
    exact (le_floors _ _ _).2.2.2
  subadditive := total_append price f cfg
  scaled := total_scale price f cfg
  split p lots a b parts := by
    unfold portfolioMargin
    rw [sumsOf_congr price f cfg]
    intro figure held counts
    rw [← List.singleton_append, ← List.append_assoc]
    simp only [exposure_append, exposure_lots figure counts parts]

theorem margin_algebra_rational : MarginAlgebra
    (fun f k _ _ _ right => if right = 'P' then max (k - f) 0 else max (f - k) 0) (6 : ℚ)
    ⟨14/25, 49/100, 1/4, 3, 33/100, 500, 25000⟩ :=
  margin_algebra _ _ _

end Corsair.Span
