import Corsair.Book.Index
import Corsair.Lib.Register

namespace Corsair.Book

open BrokerApi

structure BookFill where
  product : String
  strike : ℚ
  expiry : NaiveDate
  right : Right
  quantity : ℤ
  price : ℚ
  spread : ℚ
  spreadMid : ℚ
  deriving DecidableEq

def BookFill.key (f : BookFill) : PositionKey := makeKey f.product f.strike f.expiry f.right

def applyFill (s : PortfolioState) (f : BookFill) : PortfolioState :=
  (s.addFill f.product f.strike f.expiry f.right f.quantity f.price f.spread f.spreadMid).1

def filled (registry : ProductRegistry) (fills : List BookFill) : PortfolioState :=
  fills.foldl applyFill (.new registry)

theorem filled_snoc (registry : ProductRegistry) (fills : List BookFill) (f : BookFill) :
    filled registry (fills ++ [f]) = applyFill (filled registry fills) f := by
  simp [filled]

def multiplierOf (registry : ProductRegistry) (product : String) : ℚ :=
  (registry.multiplierFor product).getD 100

-- The ledger a list of fills amounts to: for each key what is held and the price
-- of the last fill that traded.
def held (fills : List BookFill) (key : PositionKey) : ℤ := Register.total BookFill.key BookFill.quantity fills key

def traded (fills : List BookFill) : List BookFill := fills.filter (·.quantity ≠ 0)

def lastPrice (fills : List BookFill) (key : PositionKey) : ℚ :=
  (Register.last BookFill.key BookFill.price (traded fills) key).getD 0

theorem held_snoc (fills : List BookFill) (f : BookFill) (key : PositionKey) :
    held (fills ++ [f]) key = held fills key + if f.key = key then f.quantity else 0 :=
  Register.total_snoc _ _ fills f key

theorem lastPrice_snoc (fills : List BookFill) (f : BookFill) (key : PositionKey) :
    lastPrice (fills ++ [f]) key =
      if f.quantity ≠ 0 ∧ f.key = key then f.price else lastPrice fills key := by
  unfold lastPrice traded
  by_cases trades : f.quantity = 0
  · simp [trades]
  · by_cases own : f.key = key
    · simp [trades, own, Register.last_snoc]
    · simp [trades, own, Register.last_snoc]

-- The book keeps the ledger of its fills.
structure Keeps (registry : ProductRegistry) (fills : List BookFill) (s : PortfolioState) : Prop where
  indexed : Indexed s
  registered : s.registry = registry
  entries : ∀ p ∈ s.positions, p.quantity ≠ 0 ∧ p.quantity = held fills p.key ∧
    p.avgFillPrice = lastPrice fills p.key ∧ p.multiplier = multiplierOf registry p.product
  absent : ∀ key, key ∉ s.positions.map Position.key → held fills key = 0

theorem new_keeps (registry : ProductRegistry) : Keeps registry [] (.new registry) where
  indexed := new_indexed registry
  registered := rfl
  entries := by simp [PortfolioState.new]
  absent := by simp [held]

theorem zero_keeps {registry : ProductRegistry} {fills : List BookFill} {s : PortfolioState}
    (keeps : Keeps registry fills s) {f : BookFill} (zero : f.quantity = 0) :
    Keeps registry (fills ++ [f]) (applyFill s f) := by
  have same : applyFill s f = s := by
    unfold applyFill
    rw [zero]
    exact addFill_zero ..
  have unheld : ∀ key, held (fills ++ [f]) key = held fills key := by
    intro key
    rw [held_snoc, zero]
    simp
  rw [same]
  refine ⟨keeps.indexed, keeps.registered, ?_, ?_⟩
  · intro p member
    rw [unheld, lastPrice_snoc, if_neg (by simp [zero])]
    exact keeps.entries p member
  · intro key missing
    rw [unheld]
    exact keeps.absent key missing

theorem untouched (fills : List BookFill) {f : BookFill} {key : PositionKey} (other : key ≠ f.key) :
    held (fills ++ [f]) key = held fills key ∧ lastPrice (fills ++ [f]) key = lastPrice fills key := by
  rw [held_snoc, lastPrice_snoc, if_neg (Ne.symm other), if_neg (fun own => other own.2.symm), add_zero]
  exact ⟨rfl, rfl⟩

theorem touched (fills : List BookFill) {f : BookFill} (trades : f.quantity ≠ 0) :
    held (fills ++ [f]) f.key = held fills f.key + f.quantity ∧ lastPrice (fills ++ [f]) f.key = f.price := by
  rw [held_snoc, lastPrice_snoc, if_pos rfl, if_pos ⟨trades, rfl⟩]
  exact ⟨rfl, rfl⟩

theorem trade_keeps {registry : ProductRegistry} {fills : List BookFill} {s : PortfolioState}
    (keeps : Keeps registry fills s) {f : BookFill} (trades : f.quantity ≠ 0) :
    Keeps registry (fills ++ [f]) (applyFill s f) := by
  obtain ⟨indexed, registered, -, shape⟩ := addFill_cases keeps.indexed f.product f.strike f.expiry f.right trades
    f.price f.spread f.spreadMid
  have mem := shape.mem keeps.indexed.unique
  obtain ⟨quantity, price⟩ := touched fills trades
  refine ⟨indexed, registered.trans keeps.registered, ?_, ?_⟩
  · intro p member
    rcases (mem p).mp member with ⟨old, other⟩ | ⟨rfl, absent⟩ | ⟨pos, old, own, left, rfl⟩
    · obtain ⟨sameHeld, samePrice⟩ := untouched fills other
      rw [sameHeld, samePrice]
      exact keeps.entries p old
    · have flat : held fills f.key = 0 := by
        refine keeps.absent f.key ?_
        intro present
        obtain ⟨p, old, same⟩ := List.mem_map.mp present
        exact absent p old same
      rw [flat, zero_add] at quantity
      exact ⟨trades, quantity.symm, price.symm, by rw [← keeps.registered]; rfl⟩
    · obtain ⟨-, amount, -, multiplier⟩ := keeps.entries pos old
      have key : pos.key = f.key := own
      rw [key] at amount
      refine ⟨left, ?_, ?_, multiplier⟩
      · change pos.quantity + f.quantity = held (fills ++ [f]) pos.key
        rw [key, quantity, amount]
      · change f.price = lastPrice (fills ++ [f]) pos.key
        rw [key, price]
  · intro key missing
    have gone : ∀ p : Position, p.key = key → p ∉ (applyFill s f).positions := by
      intro p own member
      exact missing (own ▸ List.mem_map_of_mem member)
    by_cases own : key = f.key
    · subst own
      by_cases present : f.key ∈ s.positions.map Position.key
      · obtain ⟨pos, old, same⟩ := List.mem_map.mp present
        obtain ⟨-, amount, -⟩ := keeps.entries pos old
        rw [same] at amount
        by_cases flat : pos.quantity + f.quantity = 0
        · rw [quantity, ← amount, flat]
        · exact absurd ((mem _).mpr (.inr (.inr ⟨pos, old, same, flat, rfl⟩))) (gone _ same)
      · refine absurd ((mem _).mpr (.inr (.inl ⟨rfl, ?_⟩))) (gone _ rfl)
        intro q old same
        exact present (List.mem_map.mpr ⟨q, old, same⟩)
    · rw [(untouched fills own).1]
      refine keeps.absent key ?_
      intro present
      obtain ⟨pos, old, same⟩ := List.mem_map.mp present
      exact gone pos same ((mem pos).mpr (.inl ⟨old, same ▸ own⟩))

theorem filled_keeps (registry : ProductRegistry) (fills : List BookFill) :
    Keeps registry fills (filled registry fills) := by
  induction fills using List.reverseRecOn with
  | nil => exact new_keeps registry
  | append_singleton fills f keeps =>
    rw [filled_snoc]
    by_cases zero : f.quantity = 0
    · exact zero_keeps keeps zero
    · exact trade_keeps keeps zero

def Marked (market : MarketView) (marks : PositionKey → ℚ) (s : PortfolioState) : Prop :=
  ∀ p ∈ s.positions, market.currentPrice p.product p.strike p.expiry p.right = some (marks p.key) ∧ 0 < marks p.key

def openPnl (registry : ProductRegistry) (fills : List BookFill) (marks : PositionKey → ℚ) (key : PositionKey) : ℚ :=
  held fills key * (marks key - lastPrice fills key) * multiplierOf registry key.product

theorem position_pnl {registry : ProductRegistry} {fills : List BookFill} {s : PortfolioState}
    (keeps : Keeps registry fills s) {market : MarketView} {marks : PositionKey → ℚ} (marked : Marked market marks s)
    {p : Position} (member : p ∈ s.positions) :
    PortfolioState.positionPnl market p = openPnl registry fills marks p.key := by
  obtain ⟨price, positive⟩ := marked p member
  obtain ⟨-, quantity, average, multiplier⟩ := keeps.entries p member
  unfold PortfolioState.positionPnl openPnl
  rw [price, Option.getD_some, if_neg (not_le.mpr positive), quantity, average, multiplier]
  rfl

theorem mtm_of_ledger {registry : ProductRegistry} {fills : List BookFill} {market : MarketView}
    {marks : PositionKey → ℚ} (marked : Marked market marks (filled registry fills))
    {keys : Finset PositionKey} (covered : ∀ f ∈ fills, f.key ∈ keys) :
    (filled registry fills).computeMtmPnl market = ∑ key ∈ keys, openPnl registry fills marks key := by
  have keeps := filled_keeps registry fills
  have perKey : (filled registry fills).computeMtmPnl market =
      ((filled registry fills).positions.map fun p => openPnl registry fills marks p.key).sum := by
    unfold PortfolioState.computeMtmPnl
    exact congrArg List.sum (List.map_congr_left fun p member => position_pnl keeps marked member)
  rw [perKey]
  refine Register.sum_entries Position.key keeps.indexed.unique ?_ ?_
  · intro p member
    obtain ⟨nonzero, quantity, -⟩ := keeps.entries p member
    have present : p.key ∈ fills.map BookFill.key := by
      by_contra missing
      rw [quantity, held, Register.total_absent _ _ missing] at nonzero
      exact nonzero rfl
    obtain ⟨f, traded, same⟩ := List.mem_map.mp present
    exact same ▸ covered f traded
  · intro key _ missing
    unfold openPnl
    rw [keeps.absent key missing]
    simp

end Corsair.Book
