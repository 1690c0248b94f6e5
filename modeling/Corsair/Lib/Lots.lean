import Mathlib.Algebra.BigOperators.Ring.List
import Mathlib.Algebra.Order.BigOperators.Group.List
import Mathlib.Algebra.Order.Field.Basic
import Mathlib.Data.List.Induction
import Mathlib.Tactic.FieldSimp
import Mathlib.Tactic.Linarith
import Mathlib.Tactic.LinearCombination
import Mathlib.Tactic.Ring

-- A position held in lots at their average cost: a trade against it closes the same
-- share of every lot.
namespace Lots

structure Lot (𝕜 : Type*) where
  qty : 𝕜
  price : 𝕜

variable {𝕜 : Type*} [Field 𝕜]

def quantity (lots : List (Lot 𝕜)) : 𝕜 := (lots.map Lot.qty).sum

def cost (lots : List (Lot 𝕜)) : 𝕜 := (lots.map fun lot => lot.qty * lot.price).sum

def entry (lots : List (Lot 𝕜)) : 𝕜 := cost lots / quantity lots

def scale (share : 𝕜) (lots : List (Lot 𝕜)) : List (Lot 𝕜) := lots.map fun lot => ⟨share * lot.qty, lot.price⟩

section Sums

variable (lots : List (Lot 𝕜)) (share : 𝕜)

@[simp] theorem quantity_nil : quantity ([] : List (Lot 𝕜)) = 0 := rfl

@[simp] theorem cost_nil : cost ([] : List (Lot 𝕜)) = 0 := rfl

@[simp] theorem quantity_append (more : List (Lot 𝕜)) : quantity (lots ++ more) = quantity lots + quantity more := by
  simp [quantity]

@[simp] theorem cost_append (more : List (Lot 𝕜)) : cost (lots ++ more) = cost lots + cost more := by
  simp [cost]

@[simp] theorem quantity_single (lot : Lot 𝕜) : quantity [lot] = lot.qty := by
  simp [quantity]

@[simp] theorem cost_single (lot : Lot 𝕜) : cost [lot] = lot.qty * lot.price := by
  simp [cost]

@[simp] theorem quantity_scale : quantity (scale share lots) = share * quantity lots := by
  unfold quantity scale
  rw [List.map_map, ← List.sum_map_mul_left]
  rfl

@[simp] theorem cost_scale : cost (scale share lots) = share * cost lots := by
  unfold cost scale
  rw [List.map_map, ← List.sum_map_mul_left]
  apply congrArg List.sum
  apply List.map_congr_left
  intro lot _
  exact mul_assoc _ _ _

variable {lots share} in
theorem entry_scale (kept : share ≠ 0) : entry (scale share lots) = entry lots := by
  rw [entry, cost_scale, quantity_scale, mul_div_mul_left _ _ kept, entry]

theorem entry_single {lot : Lot 𝕜} (sized : lot.qty ≠ 0) : entry [lot] = lot.price := by
  rw [entry, cost_single, quantity_single, mul_div_cancel_left₀ _ sized]

end Sums

variable [LinearOrder 𝕜]

def trade (lots : List (Lot 𝕜)) (qty price : 𝕜) : List (Lot 𝕜) :=
  let held := quantity lots
  if held + qty = 0 then []
  else if 0 ≤ held * qty then lots ++ [⟨qty, price⟩]
  else if |qty| < |held| then scale ((held + qty) / held) lots
  else [⟨held + qty, price⟩]

-- What a trade makes on the part of the position that it closes.
def gain (lots : List (Lot 𝕜)) (qty price : 𝕜) : 𝕜 :=
  let held := quantity lots
  if 0 ≤ held * qty then 0
  else if |qty| < |held| then -qty * (price - entry lots)
  else held * (price - entry lots)

-- The lots are all long or all short.
def OneSided (lots : List (Lot 𝕜)) : Prop := ∃ sign, ∀ lot ∈ lots, 0 < sign * lot.qty

section Trades

variable {lots : List (Lot 𝕜)} {qty price : 𝕜}

theorem trade_quantity : quantity (trade lots qty price) = quantity lots + qty := by
  unfold trade
  dsimp only
  split
  · rename_i flat
    exact flat.symm
  · split
    · rw [quantity_append, quantity_single]
    · split
      · rename_i against _
        rw [quantity_scale]
        apply div_mul_cancel₀
        rintro flat
        exact against (by rw [flat, zero_mul])
      · exact quantity_single _

variable [IsStrictOrderedRing 𝕜]

theorem signed_quantity_pos {sign : 𝕜} (sided : ∀ lot ∈ lots, 0 < sign * lot.qty) (held : lots ≠ []) :
    0 < sign * quantity lots := by
  unfold quantity
  rw [← List.sum_map_mul_left]
  apply List.sum_pos
  · intro amount member
    obtain ⟨lot, own, rfl⟩ := List.mem_map.mp member
    exact sided lot own
  · exact fun none => held (List.map_eq_nil_iff.mp none)

theorem quantity_zero_iff (sided : OneSided lots) : quantity lots = 0 ↔ lots = [] := by
  obtain ⟨sign, sided⟩ := sided
  constructor
  · intro flat
    by_contra held
    have positive := signed_quantity_pos sided held
    rw [flat, mul_zero] at positive
    exact lt_irrefl _ positive
  · rintro rfl
    rfl

theorem entry_mul_quantity (sided : OneSided lots) : entry lots * quantity lots = cost lots := by
  by_cases flat : quantity lots = 0
  · rw [flat, mul_zero, (quantity_zero_iff sided).mp flat, cost_nil]
  · exact div_mul_cancel₀ _ flat

theorem share_pos {held : 𝕜} (less : |qty| < |held|) : 0 < (held + qty) / held := by
  rcases lt_or_ge 0 held with long | short
  · rw [abs_of_pos long] at less
    apply div_pos _ long
    linarith [neg_abs_le qty]
  · rw [abs_of_nonpos short] at less
    have negative : held < 0 := by linarith [abs_nonneg qty]
    apply div_pos_of_neg_of_neg _ negative
    linarith [le_abs_self qty]

theorem trade_oneSided (sided : OneSided lots) (sized : qty ≠ 0) : OneSided (trade lots qty price) := by
  unfold trade
  dsimp only
  split
  · exact ⟨0, List.forall_mem_nil _⟩
  · rename_i kept
    split
    · rename_i along
      by_cases flat : lots = []
      · subst flat
        refine ⟨qty, ?_⟩
        intro lot member
        obtain rfl := List.mem_singleton.mp member
        exact mul_self_pos.mpr sized
      · obtain ⟨sign, sided⟩ := sided
        have positive := signed_quantity_pos sided flat
        refine ⟨sign, List.forall_mem_append.mpr ⟨sided, ?_⟩⟩
        intro lot member
        obtain rfl := List.mem_singleton.mp member
        have nonzero : sign ≠ 0 := left_ne_zero_of_mul positive.ne'
        apply lt_of_le_of_ne _ (mul_ne_zero nonzero sized).symm
        by_contra negative
        have opposed := mul_neg_of_pos_of_neg positive (not_le.mp negative)
        rw [mul_mul_mul_comm] at opposed
        exact opposed.not_ge (mul_nonneg (mul_self_nonneg sign) along)
    · split
      · rename_i less
        obtain ⟨sign, sided⟩ := sided
        refine ⟨sign, ?_⟩
        intro lot member
        obtain ⟨own, held, rfl⟩ := List.mem_map.mp member
        rw [mul_left_comm]
        exact mul_pos (share_pos less) (sided own held)
      · refine ⟨quantity lots + qty, ?_⟩
        intro lot member
        obtain rfl := List.mem_singleton.mp member
        exact mul_self_pos.mpr kept

theorem trade_cost (sided : OneSided lots) :
    cost (trade lots qty price) = cost lots + qty * price + gain lots qty price := by
  have average := entry_mul_quantity sided
  unfold trade gain
  dsimp only
  by_cases along : 0 ≤ quantity lots * qty
  · rw [if_pos along, if_pos along, add_zero]
    split
    · rename_i flat
      have opposite := eq_neg_of_add_eq_zero_left flat
      rw [opposite, neg_mul, Left.nonneg_neg_iff] at along
      have idle : qty = 0 := mul_self_eq_zero.mp (along.antisymm (mul_self_nonneg qty))
      rw [idle, neg_zero] at opposite
      rw [idle, (quantity_zero_iff sided).mp opposite, zero_mul, add_zero]
    · rw [cost_append, cost_single]
  · have held : quantity lots ≠ 0 := by
      rintro flat
      exact along (by rw [flat, zero_mul])
    rw [if_neg along, if_neg along]
    split
    · rename_i flat
      have opposite := eq_neg_of_add_eq_zero_right flat
      rw [opposite, abs_neg, if_neg (lt_irrefl _), cost_nil]
      linear_combination average
    · split
      · rw [cost_scale, ← average]
        field_simp
        ring
      · rw [cost_single]
        linear_combination average

end Trades

structure Account (𝕜 : Type*) where
  lots : List (Lot 𝕜)
  made : 𝕜

namespace Account

def flat : Account 𝕜 := ⟨[], 0⟩

def trade (a : Account 𝕜) (t : Lot 𝕜) : Account 𝕜 :=
  ⟨Lots.trade a.lots t.qty t.price, a.made + gain a.lots t.qty t.price⟩

-- What it would have made, closed at this price.
def worth (mark : 𝕜) (a : Account 𝕜) : 𝕜 := a.made + (mark * quantity a.lots - cost a.lots)

end Account

def account (trades : List (Lot 𝕜)) : Account 𝕜 := trades.foldl Account.trade .flat

@[simp] theorem account_append (trades : List (Lot 𝕜)) (t : Lot 𝕜) :
    account (trades ++ [t]) = (account trades).trade t := by
  simp [account]

variable [IsStrictOrderedRing 𝕜]

theorem worth_trade {mark : 𝕜} {a : Account 𝕜} (t : Lot 𝕜) (sided : OneSided a.lots) :
    (a.trade t).worth mark = a.worth mark + t.qty * (mark - t.price) := by
  unfold Account.worth Account.trade
  rw [trade_quantity, trade_cost sided]
  ring

theorem account_oneSided {trades : List (Lot 𝕜)} (sized : ∀ t ∈ trades, t.qty ≠ 0) :
    OneSided (account trades).lots := by
  induction trades using List.reverseRecOn with
  | nil => exact ⟨0, List.forall_mem_nil _⟩
  | append_singleton past t sided =>
    rw [List.forall_mem_append] at sized
    rw [account_append]
    exact trade_oneSided (sided sized.1) (sized.2 t (List.mem_singleton_self t))

-- Whatever was closed when, the account is worth what each trade alone would be.
theorem account_worth {trades : List (Lot 𝕜)} (sized : ∀ t ∈ trades, t.qty ≠ 0) (mark : 𝕜) :
    (account trades).worth mark = (trades.map fun t => t.qty * (mark - t.price)).sum := by
  induction trades using List.reverseRecOn with
  | nil => simp [account, Account.worth, Account.flat]
  | append_singleton past t same =>
    rw [List.forall_mem_append] at sized
    rw [account_append, worth_trade t (account_oneSided sized.1), same sized.1, List.map_append, List.sum_append,
      List.map_singleton, List.sum_singleton]

end Lots
