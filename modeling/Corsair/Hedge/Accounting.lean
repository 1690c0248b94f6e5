import Corsair.Hedge.Manager
import Corsair.Lib.Lots

namespace Corsair.Hedge

structure HedgeFill where
  isBuy : Bool
  qty : ℕ
  price : ℚ

namespace HedgeFill

def signed (f : HedgeFill) : ℤ := if f.isBuy then f.qty else -f.qty

def lot (f : HedgeFill) : Lots.Lot ℚ := ⟨f.signed, f.price⟩

end HedgeFill

namespace HedgeState

def fill (multiplier : ℚ) (s : HedgeState) (f : HedgeFill) : HedgeState := s.applyFill f.isBuy f.qty f.price multiplier

def filled (multiplier : ℚ) (fills : List HedgeFill) : HedgeState := fills.foldl (fill multiplier) new

-- What the size-weighted average is divided by, where the fill takes one.
def divisor (s : HedgeState) (f : HedgeFill) : Option ℤ :=
  let effect := effect f.isBuy f.qty
  let newQty := s.hedgeQty + effect
  if newQty = 0 then none
  else if (0 ≤ s.hedgeQty ∧ 0 ≤ effect) ∨ (s.hedgeQty ≤ 0 ∧ effect ≤ 0) then some newQty
  else none

section Steps

variable {multiplier : ℚ} {s : HedgeState} {f : HedgeFill}

theorem divisor_divides {n : ℤ} (divides : s.divisor f = some n) :
    (s.fill multiplier f).avgEntryF = (s.avgEntryF * s.hedgeQty + f.price * effect f.isBuy f.qty) / n := by
  unfold divisor at divides
  dsimp only at divides
  split at divides
  · cases divides
  · rename_i kept
    split at divides
    · rename_i same
      obtain rfl := Option.some.inj divides
      unfold fill applyFill
      rw [if_neg kept, if_pos same]
    · cases divides

theorem divisor_ne_zero {n : ℤ} (divides : n ∈ s.divisor f) : n ≠ 0 := by
  unfold divisor at divides
  dsimp only at divides
  split at divides
  · cases divides
  · rename_i kept
    split at divides
    · obtain rfl := Option.some.inj divides
      exact kept
    · cases divides

-- The state keeps the books of this account, in dollars.
structure Keeps (multiplier : ℚ) (s : HedgeState) (a : Lots.Account ℚ) : Prop where
  quantity : Lots.quantity a.lots = s.hedgeQty
  entry : s.avgEntryF = Lots.entry a.lots
  made : s.realizedPnlUsd = multiplier * a.made

theorem sign_mul_natAbs (n : ℤ) : (if 0 < n then 1 else -1 : ℚ) * n.natAbs = n := by
  split
  · rename_i positive
    rw [one_mul, Nat.cast_natAbs, abs_of_pos positive]
  · rename_i negative
    rw [neg_one_mul, Nat.cast_natAbs, abs_of_nonpos (not_lt.mp negative), Int.cast_neg, neg_neg]

theorem sign_mul_natAbs_against {n m : ℤ} (against : ¬((0 ≤ n ∧ 0 ≤ m) ∨ (n ≤ 0 ∧ m ≤ 0))) :
    (if 0 < n then 1 else -1 : ℚ) * m.natAbs = -m := by
  split
  · rename_i positive
    have negative : m ≤ 0 := by omega
    rw [one_mul, Nat.cast_natAbs, abs_of_nonpos negative, Int.cast_neg]
  · rename_i negative
    have positive : 0 ≤ m := by omega
    rw [neg_one_mul, Nat.cast_natAbs, abs_of_nonneg positive]

-- The tests of the update, on the integers and on their images.
theorem cast_same {n m : ℤ} : 0 ≤ (n : ℚ) * m ↔ (0 ≤ n ∧ 0 ≤ m) ∨ (n ≤ 0 ∧ m ≤ 0) := by
  rw [mul_nonneg_iff]
  norm_cast

theorem cast_less {n m : ℤ} : |(n : ℚ)| < |(m : ℚ)| ↔ n.natAbs < m.natAbs := by
  rw [← Int.cast_abs, ← Int.cast_abs, Int.cast_lt, Int.abs_eq_natAbs, Int.abs_eq_natAbs, Nat.cast_lt]

variable {a : Lots.Account ℚ} (keeps : Keeps multiplier s a) (fits : effect f.isBuy f.qty = f.signed)

include keeps fits

theorem fill_entry (sided : Lots.OneSided a.lots) :
    (s.fill multiplier f).avgEntryF = Lots.entry (a.trade f.lot).lots := by
  have spent := Lots.entry_mul_quantity sided
  have closed : (s.hedgeQty : ℚ) + f.signed = 0 ↔ s.hedgeQty + f.signed = 0 := by norm_cast
  unfold fill applyFill Lots.Account.trade Lots.trade HedgeFill.lot
  dsimp only
  rw [fits, keeps.quantity]
  by_cases flat : s.hedgeQty + f.signed = 0
  · rw [if_pos flat, if_pos (closed.mpr flat)]
    exact (div_zero _).symm
  · rw [if_neg flat, if_neg (closed.not.mpr flat)]
    by_cases same : (0 ≤ s.hedgeQty ∧ 0 ≤ f.signed) ∨ (s.hedgeQty ≤ 0 ∧ f.signed ≤ 0)
    · rw [if_pos same, if_pos (cast_same.mpr same), Lots.entry, Lots.cost_append, Lots.quantity_append, ← spent,
        keeps.quantity, ← keeps.entry, Lots.cost_single, Lots.quantity_single, Int.cast_add, mul_comm f.price]
    · rw [if_neg same, if_neg (cast_same.not.mpr same)]
      by_cases small : f.signed.natAbs < s.hedgeQty.natAbs
      · rw [if_pos small, if_pos (cast_less.mpr small)]
        exact keeps.entry.trans (Lots.entry_scale (Lots.share_pos (cast_less.mpr small)).ne').symm
      · rw [if_neg small, if_neg (cast_less.not.mpr small)]
        exact (@Lots.entry_single _ _ ⟨_, f.price⟩ (closed.not.mpr flat)).symm

theorem fill_made : (s.fill multiplier f).realizedPnlUsd = multiplier * (a.trade f.lot).made := by
  have made := keeps.made
  unfold fill applyFill Lots.Account.trade Lots.gain HedgeFill.lot
  dsimp only
  rw [fits, keeps.quantity, ← keeps.entry]
  by_cases same : (0 ≤ s.hedgeQty ∧ 0 ≤ f.signed) ∨ (s.hedgeQty ≤ 0 ∧ f.signed ≤ 0)
  · rw [if_pos same, if_pos (cast_same.mpr same), add_zero, ← made]
    split
    · have idle : s.hedgeQty = 0 := by omega
      simp [idle]
    · rfl
  · rw [if_neg same, if_neg (cast_same.not.mpr same)]
    by_cases small : f.signed.natAbs < s.hedgeQty.natAbs
    · have part := sign_mul_natAbs_against same
      have kept : ¬s.hedgeQty + f.signed = 0 := by omega
      rw [if_neg kept, if_pos small, if_pos (cast_less.mpr small)]
      linear_combination made + (f.price - s.avgEntryF) * multiplier * part
    · have whole := sign_mul_natAbs s.hedgeQty
      rw [if_neg small, if_neg (cast_less.not.mpr small)]
      split
      · linear_combination made + (f.price - s.avgEntryF) * multiplier * whole
      · linear_combination made + (f.price - s.avgEntryF) * multiplier * whole

theorem fill_keeps (sided : Lots.OneSided a.lots) : Keeps multiplier (s.fill multiplier f) (a.trade f.lot) := by
  refine ⟨?_, fill_entry keeps fits sided, fill_made keeps fits⟩
  rw [fill, applyFill_qty, fits, Int.cast_add, ← keeps.quantity]
  exact Lots.trade_quantity

end Steps

def signedSum (fills : List HedgeFill) : ℤ := (fills.map HedgeFill.signed).sum

def openLots (fills : List HedgeFill) : List (Lots.Lot ℚ) := (Lots.account (fills.map HedgeFill.lot)).lots

def FitsI32 (n : ℤ) : Prop := -2^31 ≤ n ∧ n < 2^31

instance (n : ℤ) : Decidable (FitsI32 n) := inferInstanceAs (Decidable (_ ∧ _))

-- Neither the quantity the fills add up to nor the one the state keeps leaves the i32.
def NoOverflow (multiplier : ℚ) (fills : List HedgeFill) : Prop :=
  ∀ past ∈ fills.inits, FitsI32 (signedSum past) ∧ FitsI32 (filled multiplier past).hedgeQty

instance (multiplier : ℚ) (fills : List HedgeFill) : Decidable (NoOverflow multiplier fills) :=
  inferInstanceAs (Decidable (∀ _ ∈ _, _))

section Runs

variable {multiplier : ℚ}

theorem effect_fits {n : ℤ} {f : HedgeFill} (whole : FitsI32 (n + f.signed))
    (kept : FitsI32 (n + effect f.isBuy f.qty)) : effect f.isBuy f.qty = f.signed := by
  unfold FitsI32 HedgeFill.signed effect at *
  cases direction : f.isBuy with
  | true =>
    simp only [direction, if_true] at *
    unfold wrapI32 at *
    omega
  | false =>
    simp only [direction, Bool.false_eq_true, if_false] at *
    unfold wrapI32 at *
    omega

@[simp] theorem filled_append (fills : List HedgeFill) (f : HedgeFill) :
    filled multiplier (fills ++ [f]) = (filled multiplier fills).fill multiplier f := by
  simp [filled]

@[simp] theorem signedSum_append (fills : List HedgeFill) (f : HedgeFill) :
    signedSum (fills ++ [f]) = signedSum fills + f.signed := by
  simp [signedSum]

theorem signed_ne_zero {f : HedgeFill} (sized : 0 < f.qty) : f.signed ≠ 0 := by
  unfold HedgeFill.signed
  split <;> omega

theorem trades_sized {fills : List HedgeFill} (sized : ∀ f ∈ fills, 0 < f.qty) :
    ∀ t ∈ fills.map HedgeFill.lot, t.qty ≠ 0 := by
  intro t member
  obtain ⟨f, own, rfl⟩ := List.mem_map.mp member
  exact Int.cast_ne_zero.mpr (signed_ne_zero (sized f own))

theorem account_sided {fills : List HedgeFill} (sized : ∀ f ∈ fills, 0 < f.qty) : Lots.OneSided (openLots fills) :=
  Lots.account_oneSided (trades_sized sized)

theorem noOverflow_past {past later : List HedgeFill} (fits : NoOverflow multiplier (past ++ later)) :
    NoOverflow multiplier past := by
  intro before member
  have shorter := ((List.mem_inits _ _).mp member).trans (List.prefix_append past later)
  exact fits before ((List.mem_inits _ _).mpr shorter)

theorem filled_keeps {fills : List HedgeFill} (sized : ∀ f ∈ fills, 0 < f.qty) (fits : NoOverflow multiplier fills) :
    (filled multiplier fills).hedgeQty = signedSum fills ∧
      Keeps multiplier (filled multiplier fills) (Lots.account (fills.map HedgeFill.lot)) := by
  induction fills using List.reverseRecOn with
  | nil => exact ⟨rfl, rfl, (div_zero _).symm, (mul_zero _).symm⟩
  | append_singleton past f next =>
    rw [List.forall_mem_append] at sized
    obtain ⟨same, keeps⟩ := next sized.1 (noOverflow_past fits)
    have sided := account_sided sized.1
    obtain ⟨whole, kept⟩ := fits _ ((List.mem_inits _ _).mpr List.prefix_rfl)
    rw [signedSum_append, ← same] at whole
    rw [filled_append, fill, applyFill_qty] at kept
    have fitting := effect_fits whole kept
    constructor
    · rw [filled_append, fill, applyFill_qty, fitting, signedSum_append, same]
    · rw [filled_append, List.map_append, List.map_singleton, Lots.account_append]
      exact fill_keeps keeps fitting sided

theorem mtm_worth {s : HedgeState} {a : Lots.Account ℚ} (keeps : Keeps multiplier s a) (sided : Lots.OneSided a.lots)
    {mark : ℚ} (positive : 0 < mark) : s.realizedPnlUsd + s.mtmUsd mark multiplier = multiplier * a.worth mark := by
  have open_value : s.mtmUsd mark multiplier = (mark - s.avgEntryF) * s.hedgeQty * multiplier := by
    unfold mtmUsd
    split
    · rename_i dark
      have flat := dark.resolve_right positive.not_ge
      rw [flat, Int.cast_zero, mul_zero, zero_mul]
    · rfl
  have spent := Lots.entry_mul_quantity sided
  rw [open_value, keeps.made, keeps.entry, ← keeps.quantity, Lots.Account.worth, ← spent]
  ring

end Runs

end HedgeState

open HedgeState in
theorem hedge_accounts (multiplier : ℚ) (fills : List HedgeFill) (sized : ∀ f ∈ fills, 0 < f.qty)
    (fits : NoOverflow multiplier fills) :
    (filled multiplier fills).hedgeQty = signedSum fills ∧
      (∀ mark, 0 < mark → (filled multiplier fills).realizedPnlUsd + (filled multiplier fills).mtmUsd mark multiplier =
        multiplier * (fills.map fun f => f.signed * (mark - f.price)).sum) ∧
      ((filled multiplier fills).hedgeQty = 0 → (filled multiplier fills).avgEntryF = 0) ∧
      (Lots.OneSided (openLots fills) ∧ Lots.quantity (openLots fills) = (filled multiplier fills).hedgeQty ∧
        (filled multiplier fills).avgEntryF = Lots.entry (openLots fills)) ∧
      ∀ past f, past ++ [f] <+: fills → ∀ n ∈ (filled multiplier past).divisor f, n ≠ 0 ∧
        (filled multiplier (past ++ [f])).avgEntryF = ((filled multiplier past).avgEntryF *
          (filled multiplier past).hedgeQty + f.price * effect f.isBuy f.qty) / n := by
  obtain ⟨same, keeps⟩ := filled_keeps sized fits
  have sided : Lots.OneSided (openLots fills) := account_sided sized
  refine ⟨same, ?_, ?_, ⟨sided, keeps.quantity, keeps.entry⟩, ?_⟩
  · intro mark positive
    rw [mtm_worth keeps sided positive, Lots.account_worth (trades_sized sized), List.map_map]
    rfl
  · intro flat
    have empty : Lots.quantity (openLots fills) = 0 := by
      rw [openLots, keeps.quantity, flat, Int.cast_zero]
    rw [keeps.entry, Lots.entry]
    exact (congrArg _ empty).trans (div_zero _)
  · intro past f _ n divides
    rw [filled_append]
    exact ⟨divisor_ne_zero divides, divisor_divides divides⟩

-- Long 4 at 6.05, sold through to short 3 at 6.1, and marked at 6.
theorem flipped_accounts :
    (HedgeState.filled 25000 [⟨true, 2, 6⟩, ⟨true, 2, 61/10⟩, ⟨false, 7, 61/10⟩]).realizedPnlUsd +
      (HedgeState.filled 25000 [⟨true, 2, 6⟩, ⟨true, 2, 61/10⟩, ⟨false, 7, 61/10⟩]).mtmUsd 6 25000 = 12500 := by
  have accounts := hedge_accounts 25000 [⟨true, 2, 6⟩, ⟨true, 2, 61/10⟩, ⟨false, 7, 61/10⟩] (by decide)
    (by decide +kernel)
  rw [accounts.2.1 6 (by norm_num)]
  decide +kernel

end Corsair.Hedge
