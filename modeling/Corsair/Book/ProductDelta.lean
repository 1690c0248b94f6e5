import Corsair.Book.Index

namespace Corsair.Book

open BrokerApi

-- A product's positions, each counted with a weight of its own: under the delta a
-- position stores this is what delta_for_product reads.
def weighed (product : String) (weight : Position → ℚ) (positions : List Position) : ℚ :=
  ((positions.filter (·.product = product)).map fun p => weight p * p.quantity).sum

section Weighed

variable {product : String} {weight : Position → ℚ}

theorem weighed_cons (p : Position) (rest : List Position) :
    weighed product weight (p :: rest) =
      (if p.product = product then weight p * p.quantity else 0) + weighed product weight rest := by
  unfold weighed
  by_cases own : p.product = product
  · simp [own]
  · simp [own]

theorem weighed_append (xs ys : List Position) :
    weighed product weight (xs ++ ys) = weighed product weight xs + weighed product weight ys := by
  simp [weighed]

theorem weighed_congr {other : Position → ℚ} {positions : List Position}
    (same : ∀ p ∈ positions, p.product = product → weight p = other p) :
    weighed product weight positions = weighed product other positions := by
  unfold weighed
  refine congrArg List.sum (List.map_congr_left ?_)
  intro p member
  obtain ⟨held, own⟩ := List.mem_filter.mp member
  rw [same p held (by simpa using own)]

theorem key_product {p q : Position} (same : p.key = q.key) : p.product = q.product := congrArg PositionKey.product same

-- What a fill adds: its quantity, at the weight of the position it goes into.
theorem filled_weighed {before after : List Position} {new : Position} (shape : Filled before new after)
    (untraded : ∀ p : Position, ∀ quantity price,
      weight { p with quantity := quantity, avgFillPrice := price } = weight p) :
    ∃ w : ℚ, weighed product weight after =
        weighed product weight before + (if new.product = product then w * new.quantity else 0) ∧
      ((∃ pos ∈ before, pos.key = new.key ∧ w = weight pos) ∨
        ((∀ p ∈ before, p.key ≠ new.key) ∧ w = weight new)) := by
  cases shape with
  | opened absent =>
    refine ⟨weight new, ?_, .inr ⟨absent, rfl⟩⟩
    rw [weighed_append, weighed_cons]
    simp [weighed]
  | @closed early later pos split same flat =>
    refine ⟨weight pos, ?_, .inl ⟨pos, by simp [split], same, rfl⟩⟩
    rw [split, weighed_append, weighed_append, weighed_cons, key_product same]
    have gone : (new.quantity : ℚ) = -pos.quantity := by
      have sum : (pos.quantity : ℚ) + new.quantity = 0 := by exact_mod_cast flat
      linarith
    rw [gone]
    split <;> ring
  | @merged early later pos split same left =>
    refine ⟨weight pos, ?_, .inl ⟨pos, by simp [split], same, rfl⟩⟩
    rw [split, weighed_append, weighed_append, weighed_cons, weighed_cons, untraded]
    simp only [key_product same, Int.cast_add]
    split <;> ring

end Weighed

-- greeks.rs, without volatility: the delta of the intrinsic value and nothing else.
def intrinsicGreeks (f strike : ℚ) (right : Char) : Greeks :=
  let call : ℚ := if strike < f then 1 else if f < strike then 0 else 1/2
  ⟨if right = 'C' ∨ right = 'c' then call else call - 1, 0, 0, 0⟩

def intrinsicPricing : Pricing := ⟨fun f strike _ _ _ right _ => intrinsicGreeks f strike right, fun _ => 1⟩

theorem refreshPosition_kept (pricing : Pricing) (registry : ProductRegistry) (market : MarketView) (p : Position) :
    (PortfolioState.refreshPosition pricing registry market p).key = p.key ∧
      (PortfolioState.refreshPosition pricing registry market p).product = p.product ∧
      (PortfolioState.refreshPosition pricing registry market p).quantity = p.quantity := by
  unfold PortfolioState.refreshPosition
  split
  · exact ⟨rfl, rfl, rfl⟩
  · simp only
    split
    · exact ⟨rfl, rfl, rfl⟩
    · exact ⟨rfl, rfl, rfl⟩

theorem refreshed_keys (s : PortfolioState) (pricing : Pricing) (market : MarketView) :
    (s.refreshGreeks pricing market).positions.map Position.key = s.positions.map Position.key := by
  simp only [PortfolioState.refreshGreeks, List.map_map]
  exact List.map_congr_left fun p _ => (refreshPosition_kept pricing s.registry market p).1

theorem refreshed_indexed {s : PortfolioState} (indexed : Indexed s) (pricing : Pricing) (market : MarketView) :
    Indexed (s.refreshGreeks pricing market) := by
  have keys := refreshed_keys s pricing market
  refine indexed_of_maps (maps_same indexed.maps keys) ?_
  rw [keys]
  exact indexed.unique

-- Delta by contract: a refresh moves no quantity.
theorem refreshed_weighed (delta : PositionKey → ℚ) (product : String) (s : PortfolioState) (pricing : Pricing)
    (market : MarketView) :
    weighed product (fun p => delta p.key) (s.refreshGreeks pricing market).positions =
      weighed product (fun p => delta p.key) s.positions := by
  unfold PortfolioState.refreshGreeks
  induction s.positions with
  | nil => rfl
  | cons p rest next =>
    obtain ⟨key, own, quantity⟩ := refreshPosition_kept pricing s.registry market p
    rw [List.map_cons, weighed_cons, weighed_cons, next, key, own, quantity]

end Corsair.Book
