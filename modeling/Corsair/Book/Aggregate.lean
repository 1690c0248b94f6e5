import Corsair.Book.Portfolio
import Corsair.Lib.Register

namespace Corsair.Book

-- A greek that each position adds its own share to.
theorem foldl_field (field : PortfolioGreeks → ℚ) (share : Position → ℚ)
    (adds : ∀ g p, field (g.addPosition p) = field g + share p) (positions : List Position) (g : PortfolioGreeks) :
    field (positions.foldl .addPosition g) = field g + (positions.map share).sum :=
  Register.foldl_field share field adds positions g

def ofProduct (s : PortfolioState) (product : String) : PortfolioGreeks :=
  (s.positions.filter (·.product = product)).foldl .addPosition .zero

theorem perProduct_get (s : PortfolioState) (product : String) :
    s.aggregate.perProduct.get product =
      if product ∈ s.positions.map (·.product) then some (ofProduct s product) else none :=
  HashMap.get_group Position.product PortfolioGreeks.addPosition .zero s.positions product

theorem ofProduct_delta (s : PortfolioState) (product : String) :
    (ofProduct s product).netDelta = s.deltaForProduct product := by
  unfold ofProduct
  rw [foldl_field (·.netDelta) (fun p => p.delta * p.quantity) (fun _ _ => rfl)]
  exact zero_add _

theorem ofProduct_theta (s : PortfolioState) (product : String) :
    (ofProduct s product).netTheta = s.thetaForProduct product := by
  unfold ofProduct
  rw [foldl_field (·.netTheta) (fun p => p.theta * p.quantity) (fun _ _ => rfl)]
  exact zero_add _

theorem ofProduct_vega (s : PortfolioState) (product : String) :
    (ofProduct s product).netVega = s.vegaForProduct product := by
  unfold ofProduct
  rw [foldl_field (·.netVega) (fun p => p.vega * p.quantity) (fun _ _ => rfl)]
  exact zero_add _

-- The greeks of a book add up.
section Sum

instance instZeroGreeks : Zero PortfolioGreeks := ⟨.zero⟩

instance instAddGreeks : Add PortfolioGreeks where
  add g h := {
    netDelta := g.netDelta + h.netDelta
    netTheta := g.netTheta + h.netTheta
    netVega := g.netVega + h.netVega
    netGamma := g.netGamma + h.netGamma
    longCount := g.longCount + h.longCount
    shortCount := g.shortCount + h.shortCount
    grossPositions := g.grossPositions + h.grossPositions }

instance instAddCommMonoidGreeks : AddCommMonoid PortfolioGreeks where
  add_assoc g h i := by apply PortfolioGreeks.ext <;> apply add_assoc
  zero_add g := by apply PortfolioGreeks.ext <;> apply zero_add
  add_zero g := by apply PortfolioGreeks.ext <;> apply add_zero
  add_comm g h := by apply PortfolioGreeks.ext <;> apply add_comm
  nsmul := nsmulRec

-- A position on its own.
def Position.greeks (p : Position) : PortfolioGreeks := PortfolioGreeks.zero.addPosition p

theorem addPosition_greeks (g : PortfolioGreeks) (p : Position) : g.addPosition p = g + p.greeks := by
  apply PortfolioGreeks.ext
  case netDelta => exact congrArg (g.netDelta + ·) (zero_add _).symm
  case netTheta => exact congrArg (g.netTheta + ·) (zero_add _).symm
  case netVega => exact congrArg (g.netVega + ·) (zero_add _).symm
  case netGamma => exact congrArg (g.netGamma + ·) (zero_add _).symm
  case longCount =>
    change (if 0 < p.quantity then g.longCount + 1 else g.longCount) = g.longCount + if 0 < p.quantity then 0 + 1 else 0
    split <;> rfl
  case shortCount =>
    change (if 0 < p.quantity then g.shortCount else if p.quantity < 0 then g.shortCount + 1 else g.shortCount) =
      g.shortCount + if 0 < p.quantity then 0 else if p.quantity < 0 then 0 + 1 else 0
    split
    · rfl
    · split <;> rfl
  case grossPositions =>
    change (if p.quantity ≠ 0 then g.grossPositions + 1 else g.grossPositions) =
      g.grossPositions + if p.quantity ≠ 0 then 0 + 1 else 0
    split <;> rfl

theorem foldl_greeks (positions : List Position) (g : PortfolioGreeks) :
    positions.foldl .addPosition g = g + (positions.map Position.greeks).sum :=
  Register.foldl_field Position.greeks id addPosition_greeks positions g

theorem ofProduct_total (s : PortfolioState) (product : String) :
    ofProduct s product = Register.total Position.product Position.greeks s.positions product := by
  unfold ofProduct
  rw [foldl_greeks]
  exact zero_add _

theorem perProduct_getD (s : PortfolioState) (product : String) :
    (s.aggregate.perProduct.get product).getD 0 =
      Register.total Position.product Position.greeks s.positions product := by
  rw [perProduct_get]
  split
  · exact ofProduct_total s product
  · rename_i absent
    exact (Register.total_absent Position.product Position.greeks absent).symm

-- The entries make up the book: each position is in the entry of its product alone.
theorem values_sum (s : PortfolioState) : s.aggregate.perProduct.values.sum = s.aggregate.total := by
  have looked : s.aggregate.perProduct.values =
      s.aggregate.perProduct.items.map fun entry => (s.aggregate.perProduct.get entry.1).getD 0 := by
    apply List.map_congr_left
    intro entry member
    rw [HashMap.mem_items.mp member]
    rfl
  let keys := (s.positions.map Position.product).toFinset
  have covered : ∀ entry ∈ s.aggregate.perProduct.items, entry.1 ∈ keys := by
    intro entry member
    have found := HashMap.mem_items.mp member
    rw [perProduct_get] at found
    split at found
    · rename_i present
      exact List.mem_toFinset.mpr present
    · cases found
  have others : ∀ product ∈ keys, product ∉ s.aggregate.perProduct.items.map Prod.fst →
      (s.aggregate.perProduct.get product).getD 0 = 0 := by
    intro product _ absent
    cases found : s.aggregate.perProduct.get product with
    | none => rfl
    | some greeks => exact absurd (List.mem_map_of_mem (HashMap.mem_items.mpr found)) absent
  have gathered : s.aggregate.perProduct.values.sum =
      ∑ product ∈ keys, Register.total Position.product Position.greeks s.positions product := by
    rw [looked, ← Finset.sum_congr rfl fun product _ => perProduct_getD s product]
    exact Register.sum_entries Prod.fst (HashMap.nodup_keys _) covered others
  rw [gathered, Register.sum_total Position.product Position.greeks]
  · exact ((foldl_greeks s.positions .zero).trans (zero_add _)).symm
  · intro p member
    exact List.mem_toFinset.mpr (List.mem_map_of_mem member)

end Sum

section Counts

variable (s : PortfolioState)

theorem foldl_count {chosen : Position → Bool} (field : PortfolioGreeks → ℕ)
    (adds : ∀ g p, field (g.addPosition p) = if chosen p then field g + 1 else field g) (positions : List Position)
    (g : PortfolioGreeks) :
    field (positions.foldl .addPosition g) = field g + (positions.filter chosen).length := by
  induction positions generalizing g with
  | nil => rfl
  | cons p rest next =>
    rw [List.foldl_cons, next, adds]
    cases mine : chosen p with
    | true =>
      simp [mine]
      omega
    | false => simp [mine]

theorem total_longCount : s.aggregate.total.longCount = s.longCount := by
  have counted := @foldl_count (0 < ·.quantity) (·.longCount)
    (fun g p => by simp [PortfolioGreeks.addPosition, PortfolioGreeks.add]) s.positions .zero
  exact counted.trans (Nat.zero_add _)

theorem total_shortCount : s.aggregate.total.shortCount = s.shortCount := by
  have adds (g : PortfolioGreeks) (p : Position) : (g.addPosition p).shortCount =
      if decide (p.quantity < 0) then g.shortCount + 1 else g.shortCount := by
    by_cases long : 0 < p.quantity
    · simp [PortfolioGreeks.addPosition, PortfolioGreeks.add, long, long.le]
    · simp [PortfolioGreeks.addPosition, PortfolioGreeks.add, long]
  exact (foldl_count (·.shortCount) adds s.positions .zero).trans (Nat.zero_add _)

theorem total_grossPositions : s.aggregate.total.grossPositions = s.grossPositions := by
  have counted := @foldl_count (·.quantity ≠ 0) (·.grossPositions)
    (fun g p => by simp [PortfolioGreeks.addPosition, PortfolioGreeks.add]) s.positions .zero
  exact counted.trans (Nat.zero_add _)

theorem longCount_add_shortCount : s.longCount + s.shortCount = s.grossPositions := by
  unfold PortfolioState.longCount PortfolioState.shortCount PortfolioState.grossPositions
  induction s.positions with
  | nil => rfl
  | cons p rest next =>
    rcases lt_trichotomy p.quantity 0 with short | flat | long
    · simp [short, short.ne, short.le] at next ⊢
      omega
    · simp [flat] at next ⊢
      omega
    · simp [long, long.ne', long.le] at next ⊢
      omega

end Counts

-- What the risk checks read from the aggregate, next to what the constraints, the
-- hedger and the snapshots sum on their own.
structure AggregateAgrees (s : PortfolioState) : Prop where
  entries : ∀ product, (s.aggregate.perProduct.get product).isSome ↔ ∃ p ∈ s.positions, p.product = product
  direct : ∀ product entry, s.aggregate.perProduct.get product = some entry →
    entry.netDelta = s.deltaForProduct product ∧ entry.netTheta = s.thetaForProduct product ∧
      entry.netVega = s.vegaForProduct product
  summed : s.aggregate.total = s.aggregate.perProduct.values.sum
  net : s.aggregate.total.netDelta = s.netDelta ∧ s.aggregate.total.netTheta = s.netTheta ∧
    s.aggregate.total.netVega = s.netVega ∧ s.aggregate.total.netGamma = s.netGamma
  counts : s.aggregate.total.longCount = s.longCount ∧ s.aggregate.total.shortCount = s.shortCount ∧
    s.aggregate.total.grossPositions = s.grossPositions
  gross : s.aggregate.total.longCount + s.aggregate.total.shortCount = s.aggregate.total.grossPositions

theorem aggregate_agrees (s : PortfolioState) : AggregateAgrees s where
  entries product := by
    rw [perProduct_get]
    split
    · rename_i present
      simpa using present
    · rename_i absent
      simpa using absent
  direct product entry found := by
    rw [perProduct_get] at found
    split at found
    · cases found
      exact ⟨ofProduct_delta s product, ofProduct_theta s product, ofProduct_vega s product⟩
    · cases found
  summed := (values_sum s).symm
  net := by
    refine ⟨?_, ?_, ?_, ?_⟩
    · exact (foldl_field (·.netDelta) _ (fun _ _ => rfl) s.positions .zero).trans (zero_add _)
    · exact (foldl_field (·.netTheta) _ (fun _ _ => rfl) s.positions .zero).trans (zero_add _)
    · exact (foldl_field (·.netVega) _ (fun _ _ => rfl) s.positions .zero).trans (zero_add _)
    · exact (foldl_field (·.netGamma) _ (fun _ _ => rfl) s.positions .zero).trans (zero_add _)
  counts := ⟨total_longCount s, total_shortCount s, total_grossPositions s⟩
  gross := by
    rw [total_longCount, total_shortCount, total_grossPositions]
    exact longCount_add_shortCount s

end Corsair.Book
