import Corsair.Rounding
import Corsair.Trader.Gates

namespace Corsair.Trader

def theoFor (quoting : Quoting) (s : TraderState) (tick : TickMsg) : Option ℚ := do
  let surface ← surfaceFor s.volSurfaces tick.expiry (sideChar tick.right)
  let tte ← quoting.timeToExpiryYears tick.expiry
  computeTheo quoting surface.forward tick.strike tte (sideChar tick.right) surface.params

def minEdge (s : TraderState) : ℚ := s.minEdgeTicks * s.tickSize

def naiveTarget (s : TraderState) (theo : ℚ) : Side → ℚ
  | .buy => theo - minEdge s
  | .sell => theo + minEdge s

section Targets

variable {quoting : Quoting} {s : TraderState} {tick : TickMsg} {now : ℕ} {d : Decision} {theo : ℚ}

-- The tick-jump asks for a jumped price past the naive one that still keeps the edge: none is.
theorem targetPrice_naive {bid ask target : ℚ} {side : Side} (aimed : targetPrice s theo bid ask side = some target) :
    target = naiveTarget s theo side ∧ 0 < target := by
  unfold naiveTarget minEdge
  cases side with
  | buy =>
    unfold targetPrice at aimed
    dsimp only at aimed
    split at aimed
    · cases aimed
    · rename_i positive
      have stays : ¬(theo - s.minEdgeTicks * s.tickSize < bid + s.tickSize ∧
          s.minEdgeTicks * s.tickSize ≤ theo - (bid + s.tickSize)) := by
        intro jumps
        obtain ⟨behind, kept⟩ := jumps
        linarith
      rw [if_neg stays] at aimed
      split at aimed
      · cases aimed
      · obtain rfl := Option.some.inj aimed
        exact ⟨rfl, not_le.mp positive⟩
  | sell =>
    unfold targetPrice at aimed
    dsimp only at aimed
    split at aimed
    · cases aimed
    · rename_i positive
      have stays : ¬(ask - s.tickSize < theo + s.minEdgeTicks * s.tickSize ∧
          s.minEdgeTicks * s.tickSize ≤ ask - s.tickSize - theo) := by
        intro jumps
        obtain ⟨behind, kept⟩ := jumps
        linarith
      rw [if_neg stays] at aimed
      split at aimed
      · cases aimed
      · obtain rfl := Option.some.inj aimed
        exact ⟨rfl, not_le.mp positive⟩

theorem decided_price (member : d ∈ decideOnTick quoting s tick now) (computed : theoFor quoting s tick = some theo) :
    d.price = quantize s.tickSize (naiveTarget s theo d.side) ∧ 0 < naiveTarget s theo d.side := by
  obtain ⟨surface, tte, priced, lit, decided⟩ := decideOnTick_quotable member
  have same : theoFor quoting s tick = some priced := by
    simp only [theoFor, lit.fitted, lit.years, Option.bind_eq_bind, Option.bind_some]
    exact lit.priced
  obtain rfl := Option.some.inj (same.symm.trans computed)
  obtain ⟨target, aimed, price, -⟩ := decideSide_places decided
  obtain ⟨rfl, positive⟩ := targetPrice_naive aimed
  exact ⟨price, positive⟩

theorem quantize_eq (tickSize target : ℚ) : quantize tickSize target = snap (1/10000) (snap tickSize target) := by
  unfold quantize snap
  rw [div_div_eq_mul_div, div_one, mul_one_div]

-- A tick size of whole ten-thousandths has nothing for the second rounding to do.
theorem quantize_regular {k : ℤ} {tickSize : ℚ} (regular : tickSize = k / 10000) (target : ℚ) :
    quantize tickSize target = snap tickSize target := by
  have whole : snap tickSize target = ((roundHalfAway (target / tickSize) * k : ℤ) : ℚ) * (1/10000) := by
    unfold snap
    push_cast
    rw [mul_one_div, mul_div_assoc, ← regular]
  rw [quantize_eq, whole, snap_multiple (by norm_num)]

theorem quantize_le_iff {tickSize target y : ℚ} (ticked : 0 < tickSize) (positive : 0 ≤ target) :
    quantize tickSize target ≤ y ↔ target < midpointBelow tickSize (midpointAbove (1/10000) y) := by
  rw [quantize_eq, snap_le_iff (by norm_num) (snap_nonneg ticked positive), snap_lt_iff ticked positive]

theorem le_quantize_iff {tickSize target y : ℚ} (ticked : 0 < tickSize) (positive : 0 ≤ target) :
    y ≤ quantize tickSize target ↔ midpointBelow tickSize (midpointBelow (1/10000) y) ≤ target := by
  rw [quantize_eq, le_snap_iff (by norm_num) (snap_nonneg ticked positive), le_snap_iff ticked positive]

end Targets

def KeepsEdge (s : TraderState) (theo : ℚ) (d : Decision) : Prop :=
  (d.side = .buy → d.price ≤ theo - minEdge s) ∧ (d.side = .sell → theo + minEdge s ≤ d.price)

-- The target is rounded away from theo, or not at all.
def roundsOutward (s : TraderState) (theo : ℚ) : Side → Prop
  | .buy => theo - minEdge s < midpointBelow s.tickSize (midpointAbove (1/10000) (theo - minEdge s))
  | .sell => midpointBelow s.tickSize (midpointBelow (1/10000) (theo + minEdge s)) ≤ theo + minEdge s

theorem ceil_near_iff (x : ℚ) : ⌈x⌉ - 1/2 ≤ x ↔ Int.fract x = 0 ∨ 1/2 ≤ Int.fract x := by
  by_cases whole : Int.fract x = 0
  · have self := Int.floor_add_fract x
    rw [whole, add_zero] at self
    rw [← self, Int.ceil_intCast]
    simp
  · rw [Int.ceil_eq_add_one_sub_fract whole, or_iff_right whole]
    constructor <;> intro given <;> linarith

-- With a tick of whole ten-thousandths it is the place of theo in its own tick that decides.
theorem roundsOutward_regular {k : ℤ} {s : TraderState} {theo : ℚ} (ticked : 0 < s.tickSize)
    (regular : s.tickSize = k / 10000) :
    (0 < theo - minEdge s → (roundsOutward s theo .buy ↔ Int.fract (theo / s.tickSize) < 1/2)) ∧
      (0 < theo + minEdge s → (roundsOutward s theo .sell ↔
        Int.fract (theo / s.tickSize) = 0 ∨ 1/2 ≤ Int.fract (theo / s.tickSize))) := by
  constructor
  · intro positive
    have shifted : (theo - minEdge s) / s.tickSize = theo / s.tickSize - s.minEdgeTicks := by
      rw [minEdge, sub_div, mul_div_cancel_right₀ _ ticked.ne']
    change theo - minEdge s < midpointBelow s.tickSize (midpointAbove (1/10000) (theo - minEdge s)) ↔ _
    rw [← quantize_le_iff ticked positive.le, quantize_regular regular, snap_le_iff ticked positive.le,
      midpointAbove, ← div_lt_iff₀ ticked, ← sub_lt_iff_lt_add', Int.self_sub_floor, shifted, Int.fract_sub_intCast]
  · intro positive
    have shifted : (theo + minEdge s) / s.tickSize = theo / s.tickSize + s.minEdgeTicks := by
      rw [minEdge, add_div, mul_div_cancel_right₀ _ ticked.ne']
    change midpointBelow s.tickSize (midpointBelow (1/10000) (theo + minEdge s)) ≤ theo + minEdge s ↔ _
    rw [← le_quantize_iff ticked positive.le, quantize_regular regular, le_snap_iff ticked positive.le,
      midpointBelow, ← le_div_iff₀ ticked, shifted, Int.ceil_add_intCast, Int.cast_add, add_sub_right_comm,
      add_le_add_iff_right]
    exact ceil_near_iff _

-- What an exchange takes as a quote that rests.
structure ValidQuote (s : TraderState) (tick : TickMsg) (d : Decision) : Prop where
  positive : 0 < d.price
  multiple : ∃ n : ℤ, d.price = n * s.tickSize
  buy : d.side = .buy → ∀ ask ∈ tick.ask, d.price < ask
  sell : d.side = .sell → ∀ bid ∈ tick.bid, bid < d.price

-- The target is half a tick away from zero, and from the last price short of the other side.
def staysInside (s : TraderState) (tick : TickMsg) (theo : ℚ) (side : Side) : Prop :=
  s.tickSize / 2 ≤ naiveTarget s theo side ∧
    match side with
    | .buy => ∀ ask ∈ tick.ask, theo - minEdge s < midpointBelow s.tickSize ask
    | .sell => ∀ bid ∈ tick.bid, midpointAbove s.tickSize bid ≤ theo + minEdge s

section Decided

variable (quoting : Quoting) (s : TraderState) (tick : TickMsg) (now : ℕ)

theorem decided_keeps_edge_iff (ticked : 0 < s.tickSize) :
    ∀ d ∈ decideOnTick quoting s tick now, ∀ theo ∈ theoFor quoting s tick,
      (KeepsEdge s theo d ↔ roundsOutward s theo d.side) := by
  intro d member theo computed
  obtain ⟨price, positive⟩ := decided_price member computed
  unfold KeepsEdge
  cases side : d.side with
  | buy =>
    rw [side] at price positive
    rw [price]
    apply Iff.trans (and_iff_left_of_imp (fun _ sell => by cases sell))
    apply (forall_prop_of_true rfl).trans
    exact quantize_le_iff ticked positive.le
  | sell =>
    rw [side] at price positive
    rw [price]
    apply Iff.trans (and_iff_right_of_imp (fun _ buy => by cases buy))
    apply (forall_prop_of_true rfl).trans
    exact le_quantize_iff ticked positive.le

theorem decided_valid_iff {k : ℤ} (ticked : 0 < k) (regular : s.tickSize = k / 10000) :
    ∀ d ∈ decideOnTick quoting s tick now, ∀ theo ∈ theoFor quoting s tick,
      (ValidQuote s tick d ↔ staysInside s tick theo d.side) := by
  intro d member theo computed
  obtain ⟨price, positive⟩ := decided_price member computed
  have unit : 0 < s.tickSize := by
    rw [regular]
    apply div_pos (Int.cast_pos.mpr ticked)
    norm_num
  rw [quantize_regular regular] at price
  have aboveZero : 0 < d.price ↔ s.tickSize / 2 ≤ naiveTarget s theo d.side := by
    rw [price, lt_snap_iff unit positive.le, midpointAbove_zero]
  constructor
  · intro valid
    refine ⟨aboveZero.mp valid.positive, ?_⟩
    cases side : d.side with
    | buy =>
      intro ask quoted
      rw [side] at price positive
      apply (snap_lt_iff unit positive.le).mp
      exact price ▸ valid.buy side ask quoted
    | sell =>
      intro bid quoted
      rw [side] at price positive
      apply (lt_snap_iff unit positive.le).mp
      exact price ▸ valid.sell side bid quoted
  · intro stays
    obtain ⟨half, inside⟩ := stays
    refine ⟨aboveZero.mpr half, ⟨_, price⟩, ?_, ?_⟩
    · intro side ask quoted
      rw [side] at price positive inside
      rw [price]
      exact (snap_lt_iff unit positive.le).mpr (inside ask quoted)
    · intro side bid quoted
      rw [side] at price positive inside
      rw [price]
      exact (lt_snap_iff unit positive.le).mpr (inside bid quoted)

end Decided

section AtTheMoney

-- At 0.23927, and two ticks of edge, the sell rounds up from 0.24027, and the buy too from 0.23827.
theorem sell_quoted : (⟨.sell, 481/2000, none⟩ : Decision) ∈
    decideOnTick sviQuoting (longTrader 0) (putTick (1/5) (1/4)) 1000000000 := by
  decide +kernel

theorem put_theo (bid ask : ℚ) : theoFor sviQuoting (longTrader 0) (putTick bid ask) = some (23927/100000) := by
  change theoFor sviQuoting (longTrader 0) (putTick 0 0) = _
  decide +kernel

theorem tick_positive : 0 < (longTrader 0).tickSize := by
  decide +kernel

theorem tick_regular : (longTrader 0).tickSize = (5 : ℤ) / 10000 := by
  decide +kernel

end AtTheMoney

theorem sell_keeps_edge : KeepsEdge (longTrader 0) (23927/100000) ⟨.sell, 481/2000, none⟩ := by
  have kept := decided_keeps_edge_iff sviQuoting (longTrader 0) (putTick (1/5) (1/4)) 1000000000 tick_positive _
    sell_quoted _ (put_theo _ _)
  apply kept.mpr
  change midpointBelow _ _ ≤ _
  decide +kernel

theorem buy_rounds_up :
    0 < (longTrader 0).tickSize ∧ 0 ≤ (longTrader 0).minEdgeTicks ∧
      ∃ d ∈ decideOnTick sviQuoting (longTrader 0) (putTick (1/5) (1/4)) 1000000000,
        ∃ theo ∈ theoFor sviQuoting (longTrader 0) (putTick (1/5) (1/4)), ¬KeepsEdge (longTrader 0) theo d := by
  have quoted : (⟨.buy, 477/2000, none⟩ : Decision) ∈
      decideOnTick sviQuoting (longTrader 0) (putTick (1/5) (1/4)) 1000000000 := by decide +kernel
  refine ⟨tick_positive, by decide, _, quoted, _, put_theo _ _, ?_⟩
  intro keeps
  exact absurd (keeps.1 rfl) (by decide +kernel)

theorem sell_valid : ValidQuote (longTrader 0) (putTick (1/5) (1/4)) ⟨.sell, 481/2000, none⟩ := by
  have valid := decided_valid_iff sviQuoting (longTrader 0) (putTick (1/5) (1/4)) 1000000000 (by decide) tick_regular _
    sell_quoted _ (put_theo _ _)
  apply valid.mpr
  refine ⟨by decide +kernel, ?_⟩
  intro bid quoted
  obtain rfl := Option.some.inj quoted
  decide +kernel

theorem buy_locks_ask :
    (longTrader 0).tickSize = (5 : ℤ) / 10000 ∧
      ∃ d ∈ decideOnTick sviQuoting (longTrader 0) (putTick (1/5) (477/2000)) 1000000000,
        ¬ValidQuote (longTrader 0) (putTick (1/5) (477/2000)) d := by
  have quoted : (⟨.buy, 477/2000, none⟩ : Decision) ∈
      decideOnTick sviQuoting (longTrader 0) (putTick (1/5) (477/2000)) 1000000000 := by decide +kernel
  refine ⟨tick_regular, _, quoted, ?_⟩
  intro valid
  exact lt_irrefl _ (valid.buy rfl _ rfl)

end Corsair.Trader
