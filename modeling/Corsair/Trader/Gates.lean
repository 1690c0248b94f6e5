import Mathlib.Tactic.Linarith
import Corsair.Trader.Replace

namespace Corsair.Trader

-- What lets a tick through to the two sides.
structure Quotable (quoting : Quoting) (s : TraderState) (tick : TickMsg) (now : ℕ)
    (surface : VolSurfaceEntry) (tte theo : ℚ) : Prop where
  gates : quotable s tick (computeRiskGates s now)
  fitted : surfaceFor s.volSurfaces tick.expiry (sideChar tick.right) = some surface
  years : quoting.timeToExpiryYears tick.expiry = some tte
  unexpired : 0 < tte
  drift : |s.underlyingPrice - surface.forward| ≤ maxForwardDriftTicks * s.tickSize
  priced : computeTheo quoting surface.forward tick.strike tte (sideChar tick.right) surface.params = some theo
  bid : 0 < tick.bid.getD 0
  ask : 0 < tick.ask.getD 0
  bidSize : minBboSize ≤ tick.bidSize.getD 0
  askSize : minBboSize ≤ tick.askSize.getD 0

-- A value that a default of its own would not pass for.
theorem known_of_getD {α : Type} {P : α → Prop} {default : α} {value : Option α} (fails : ¬P default)
    (holds : P (value.getD default)) : ∃ known ∈ value, P known := by
  cases value with
  | none => exact (fails holds).elim
  | some known => exact ⟨known, rfl, holds⟩

section Decisions

variable {quoting : Quoting} {s : TraderState} {tick : TickMsg} {now : ℕ} {d : Decision}

theorem decideOnTick_quotable (member : d ∈ decideOnTick quoting s tick now) :
    ∃ surface tte theo, Quotable quoting s tick now surface tte theo ∧
      decideSide s tick theo (tick.bid.getD 0) (tick.ask.getD 0) (computeRiskGates s now) now d.side = some d := by
  unfold decideOnTick at member
  dsimp only at member
  split at member
  · cases member
  · rename_i gates
    cases fitted : surfaceFor s.volSurfaces tick.expiry (sideChar tick.right) with
    | none => simp [fitted] at member
    | some surface =>
      cases years : quoting.timeToExpiryYears tick.expiry with
      | none => simp [fitted, years] at member
      | some tte =>
        simp only [fitted, years] at member
        split at member
        · cases member
        · rename_i alive
          obtain ⟨unexpired, drift⟩ := not_or.mp alive
          split at member
          · cases member
          · rename_i theo priced
            split at member
            · cases member
            · rename_i lit
              obtain ⟨bid, ask⟩ := not_or.mp lit
              split at member
              · cases member
              · rename_i thick
                obtain ⟨bidSize, askSize⟩ := not_or.mp thick
                obtain ⟨side, -, decided⟩ := List.mem_filterMap.mp member
                have own : d.side = side := (decideSide_cancels decided).1
                subst own
                refine ⟨surface, tte, theo, ?_, decided⟩
                exact ⟨not_not.mp gates, fitted, years, not_le.mp unexpired, not_lt.mp drift, priced, not_le.mp bid,
                  not_le.mp ask, not_lt.mp bidSize, not_lt.mp askSize⟩

def RiskGates.blocks (gates : RiskGates) : Side → Bool
  | .buy => gates.buy
  | .sell => gates.sell

theorem decideSide_places {theo bid ask : ℚ} {gates : RiskGates} {side : Side}
    (decided : decideSide s tick theo bid ask gates now side = some d) :
    ∃ target, targetPrice s theo bid ask side = some target ∧ d.price = quantize s.tickSize target ∧
      gates.blocks side = false := by
  unfold decideSide at decided
  obtain ⟨target, aimed, gated⟩ := Option.bind_eq_some_iff.mp decided
  clear decided
  refine ⟨target, aimed, ?_⟩
  change (if gates.blocks side = true then _ else _) = _ at gated
  split at gated
  · cases gated
  · rename_i unblocked
    refine ⟨?_, Bool.not_eq_true _ ▸ unblocked⟩
    dsimp only at gated
    split at gated
    · obtain rfl := Option.some.inj gated
      rfl
    · split at gated
      · cases gated
      · obtain rfl := Option.some.inj gated
        rfl

-- The risk state that blocks neither side outright.
structure Clear (s : TraderState) (now : ℕ) (eff : ℚ) : Prop where
  received : s.riskEffectiveDelta = some eff
  stamped : s.riskStateAgeMonotonicNs ≠ 0
  fresh : seconds (now - s.riskStateAgeMonotonicNs) ≤ riskStateStaleS
  delta : |eff| < s.deltaKill - 1
  margin : ∀ pct ∈ s.riskMarginPct, pct < s.marginCeilingPct

theorem computeRiskGates_clear (unblocked : (computeRiskGates s now).all = false) :
    ∃ eff, Clear s now eff ∧
      (computeRiskGates s now).blocks .buy = decide (s.deltaCeiling ≤ eff + 1) ∧
      (computeRiskGates s now).blocks .sell = decide (eff - 1 ≤ -s.deltaCeiling) := by
  unfold computeRiskGates at unblocked ⊢
  cases received : s.riskEffectiveDelta with
  | none => simp [received] at unblocked
  | some eff =>
    simp only [received] at unblocked
    dsimp only
    split at unblocked
    · cases unblocked
    · rename_i live
      obtain ⟨stamped, fresh⟩ := not_or.mp live
      rw [if_neg live]
      obtain ⟨delta, margin⟩ := Bool.or_eq_false_iff.mp unblocked
      refine ⟨eff, ⟨received, stamped, not_lt.mp fresh, not_le.mp (of_decide_eq_false delta), ?_⟩, rfl, rfl⟩
      intro pct known
      rw [Option.mem_def.mp known, Option.any_some] at margin
      exact not_le.mp (of_decide_eq_false margin)

theorem decided_clear (member : d ∈ decideOnTick quoting s tick now) :
    ∃ eff, Clear s now eff ∧ (d.side = .buy → eff + 1 < s.deltaCeiling) ∧
      (d.side = .sell → -s.deltaCeiling < eff - 1) := by
  obtain ⟨surface, tte, theo, lit, decided⟩ := decideOnTick_quotable member
  obtain ⟨-, -, -, unblocked⟩ := decideSide_places decided
  have gates := lit.gates
  unfold quotable at gates
  simp only [decide_eq_true_eq] at gates
  obtain ⟨eff, clear, buy, sell⟩ := computeRiskGates_clear (Bool.not_eq_true _ ▸ gates.2.2.2.2.2.2)
  refine ⟨eff, clear, ?_, ?_⟩
  · intro side
    rw [side, buy] at unblocked
    exact not_le.mp (of_decide_eq_false unblocked)
  · intro side
    rw [side, sell] at unblocked
    exact not_le.mp (of_decide_eq_false unblocked)

-- All the guards a quote on this side has passed.
structure Guarded (quoting : Quoting) (s : TraderState) (tick : TickMsg) (now : ℕ) (side : Side) : Prop where
  unkilled : s.kills.items = []
  unpaused : s.weekendPaused = false
  risk : ∃ eff, Clear s now eff ∧ (side = .buy → eff + 1 < s.deltaCeiling) ∧
    (side = .sell → -s.deltaCeiling < eff - 1)
  window : |tick.strike - s.underlyingPrice| ≤ maxStrikeOffsetUsd
  call : sideChar tick.right = 'C' → s.underlyingPrice - atmTolUsd ≤ tick.strike
  put : sideChar tick.right = 'P' → tick.strike ≤ s.underlyingPrice + atmTolUsd
  surface : ∃ surface, surfaceFor s.volSurfaces tick.expiry (sideChar tick.right) = some surface ∧
    |s.underlyingPrice - surface.forward| ≤ maxForwardDriftTicks * s.tickSize
  years : ∃ tte, quoting.timeToExpiryYears tick.expiry = some tte ∧ 0 < tte
  bid : ∃ bid ∈ tick.bid, 0 < bid
  ask : ∃ ask ∈ tick.ask, 0 < ask
  bidSize : ∃ size ∈ tick.bidSize, minBboSize ≤ size
  askSize : ∃ size ∈ tick.askSize, minBboSize ≤ size

theorem decideOnTick_guarded :
    (∀ d ∈ decideOnTick quoting s tick now, Guarded quoting s tick now d.side) ∧
      ∀ side, ((decideOnTick quoting s tick now).map Decision.side).count side ≤ 1 := by
  constructor
  · intro d member
    obtain ⟨surface, tte, theo, lit, -⟩ := decideOnTick_quotable member
    have gates := lit.gates
    unfold quotable at gates
    simp only [decide_eq_true_eq] at gates
    obtain ⟨-, unkilled, unpaused, window, call, put, -⟩ := gates
    exact
      { unkilled := List.isEmpty_iff.mp unkilled
        unpaused := Bool.not_eq_true _ ▸ unpaused
        risk := decided_clear member
        window := window
        call := fun right => not_lt.mp fun below => call ⟨right, below⟩
        put := fun right => not_lt.mp fun above => put ⟨right, above⟩
        surface := ⟨surface, lit.fitted, lit.drift⟩
        years := ⟨tte, lit.years, lit.unexpired⟩
        bid := known_of_getD (lt_irrefl 0) lit.bid
        ask := known_of_getD (lt_irrefl 0) lit.ask
        bidSize := known_of_getD (P := (minBboSize ≤ ·)) (by decide) lit.bidSize
        askSize := known_of_getD (P := (minBboSize ≤ ·)) (by decide) lit.askSize }
  · exact List.nodup_iff_count_le_one.mp (decided_sides now)

end Decisions

-- The delta of one lot, and the effective delta once it is bought or sold.
def LotDelta (right : Char) (delta : ℚ) : Prop :=
  (right = 'C' → 0 ≤ delta ∧ delta ≤ 1) ∧ (right = 'P' → -1 ≤ delta ∧ delta ≤ 0)

def filled (eff delta : ℚ) : Side → ℚ
  | .buy => eff + delta
  | .sell => eff - delta

def KeepsCeiling (ceiling eff : ℚ) (right : Char) (side : Side) : Prop :=
  ∀ delta, LotDelta right delta → |filled eff delta side| ≤ ceiling ∨ |filled eff delta side| ≤ |eff|

-- The bound the gate of this side does not look at, or a position the fill reduces.
def putWithin (ceiling eff : ℚ) : Side → Bool
  | .buy => -ceiling ≤ eff - 1 ∨ 1/2 ≤ eff
  | .sell => eff + 1 ≤ ceiling ∨ eff ≤ -1/2

theorem lotDelta_call {delta : ℚ} : LotDelta 'C' delta ↔ 0 ≤ delta ∧ delta ≤ 1 := by
  simp [LotDelta]

theorem lotDelta_put {delta : ℚ} : LotDelta 'P' delta ↔ 0 ≤ -delta ∧ -delta ≤ 1 := by
  simp [LotDelta, neg_le, and_comm]

section Ceiling

variable {ceiling eff : ℚ}

-- A move up that ends under the ceiling, and its mirror image.
theorem raised_within {next : ℚ} (up : eff ≤ next) (below : next ≤ ceiling) : |next| ≤ ceiling ∨ |next| ≤ |eff| := by
  rcases le_total 0 next with positive | negative
  · left
    rwa [abs_of_nonneg positive]
  · right
    rw [abs_of_nonpos negative, abs_of_nonpos (up.trans negative)]
    exact neg_le_neg up

theorem lowered_within {next : ℚ} (down : next ≤ eff) (above : -ceiling ≤ next) :
    |next| ≤ ceiling ∨ |next| ≤ |eff| := by
  have mirrored := raised_within (neg_le_neg down) (neg_le.mp above)
  rwa [abs_neg, abs_neg] at mirrored

-- Where a move up by at most one may end, the worst is the whole of it.
theorem raised_iff :
    (∀ step, 0 ≤ step → step ≤ 1 → |eff + step| ≤ ceiling ∨ |eff + step| ≤ |eff|) ↔
      eff + 1 ≤ ceiling ∨ eff ≤ -1/2 := by
  constructor
  · intro kept
    rcases kept 1 zero_le_one le_rfl with within | smaller
    · exact .inl (le_of_abs_le within)
    · right
      rcases le_total 0 eff with positive | negative
      · rw [abs_of_nonneg positive, abs_of_nonneg (by linarith)] at smaller
        linarith
      · rw [abs_of_nonpos negative] at smaller
        have above := le_of_abs_le smaller
        linarith
  · intro given step positive small
    rcases given with within | short
    · exact raised_within (by linarith) (by linarith)
    · right
      rw [abs_of_nonpos (show eff ≤ 0 by linarith), abs_le]
      constructor <;> linarith

theorem lowered_iff :
    (∀ step, 0 ≤ step → step ≤ 1 → |eff - step| ≤ ceiling ∨ |eff - step| ≤ |eff|) ↔
      -ceiling ≤ eff - 1 ∨ 1/2 ≤ eff := by
  have mirrored := @raised_iff ceiling (-eff)
  have flips : ∀ step, |-eff + step| = |eff - step| := fun step => by
    rw [← abs_neg, neg_add, neg_neg, sub_eq_add_neg]
  simp only [flips, abs_neg] at mirrored
  rw [mirrored]
  constructor
  · intro given
    exact given.imp (fun within => by linarith) (fun short => by linarith)
  · intro given
    exact given.imp (fun within => by linarith) (fun short => by linarith)

theorem keepsCeiling_call {side : Side} (buy : side = .buy → eff + 1 < ceiling)
    (sell : side = .sell → -ceiling < eff - 1) : KeepsCeiling ceiling eff 'C' side := by
  intro delta lot
  obtain ⟨positive, small⟩ := lotDelta_call.mp lot
  cases side with
  | buy => exact raised_within (le_add_of_nonneg_right positive) ((add_le_add_right small eff).trans (buy rfl).le)
  | sell => exact lowered_within (sub_le_self _ positive) ((sell rfl).le.trans (sub_le_sub_left small eff))

theorem keepsCeiling_put {side : Side} : KeepsCeiling ceiling eff 'P' side ↔ putWithin ceiling eff side = true := by
  cases side with
  | buy =>
    refine Iff.trans ?_ (lowered_iff.trans decide_eq_true_iff.symm)
    constructor
    · intro kept step positive small
      rw [sub_eq_add_neg]
      refine kept (-step) (lotDelta_put.mpr ?_)
      rw [neg_neg]
      exact ⟨positive, small⟩
    · intro kept delta lot
      obtain ⟨positive, small⟩ := lotDelta_put.mp lot
      have moved := kept (-delta) positive small
      rwa [sub_neg_eq_add] at moved
  | sell =>
    refine Iff.trans ?_ (raised_iff.trans decide_eq_true_iff.symm)
    constructor
    · intro kept step positive small
      rw [← sub_neg_eq_add]
      refine kept (-step) (lotDelta_put.mpr ?_)
      rw [neg_neg]
      exact ⟨positive, small⟩
    · intro kept delta lot
      obtain ⟨positive, small⟩ := lotDelta_put.mp lot
      have moved := kept (-delta) positive small
      rwa [← sub_eq_add_neg] at moved

end Ceiling

section Decided

variable (quoting : Quoting) (s : TraderState) (tick : TickMsg) (now : ℕ)

theorem decideOnTick_keeps_ceiling_iff :
    ∀ d ∈ decideOnTick quoting s tick now, ∀ eff ∈ s.riskEffectiveDelta,
      sideChar tick.right = 'C' ∨ sideChar tick.right = 'P' →
        (KeepsCeiling s.deltaCeiling eff (sideChar tick.right) d.side ↔
          (sideChar tick.right = 'P' → putWithin s.deltaCeiling eff d.side)) := by
  intro d member eff known right
  rcases right with call | put
  · obtain ⟨clear, received, buy, sell⟩ := decided_clear member
    obtain rfl := Option.some.inj (received.received.symm.trans known)
    rw [call]
    exact ⟨fun _ put => absurd put (by decide), fun _ => keepsCeiling_call buy sell⟩
  · rw [put, keepsCeiling_put]
    exact ⟨fun within _ => within, fun within => within rfl⟩

end Decided

section AtTheMoney

-- An SVI volatility of 0.2 prices the option at the forward, three months out, at 0.23927.
def sviQuoting : Quoting where
  sviImpliedVol _ _ _ _ _ _ _ _ := some (1/5)
  sabrImpliedVol _ _ _ _ _ _ _ := none
  black76Price _ _ _ _ _ _ := 23927/100000
  timeToExpiryYears _ := some (1/4)

def sviSurface : VolSurfaceEntry where
  forward := 6
  params := { model := "svi", a := some (1/200), b := some (1/20), rho := some (-3/10), m := some 0, sigma := some (1/10)
              alpha := none, beta := none, nu := none }

def longTrader (eff : ℚ) : TraderState :=
  { TraderState.new with
    volSurfaces := (∅ : HashMap _ _).set ("20260826", 'C') sviSurface
    underlyingPrice := 6
    riskEffectiveDelta := some eff
    riskMarginPct := some 0
    riskStateAgeMonotonicNs := 1 }

def putTick (bid ask : ℚ) : TickMsg where
  strike := 6
  expiry := "20260826"
  right := "P"
  bid := some bid
  ask := some ask
  bidSize := some 10
  askSize := some 10
  tsNs := some 1

end AtTheMoney

theorem flat_put_keeps_ceiling :
    (⟨.sell, 481/2000, none⟩ : Decision) ∈ decideOnTick sviQuoting (longTrader 0) (putTick (1/5) (1/4)) 1000000000 ∧
      KeepsCeiling 3 0 'P' .sell := by
  have quoted : (⟨.sell, 481/2000, none⟩ : Decision) ∈
      decideOnTick sviQuoting (longTrader 0) (putTick (1/5) (1/4)) 1000000000 := by decide +kernel
  have kept := decideOnTick_keeps_ceiling_iff sviQuoting (longTrader 0) (putTick (1/5) (1/4)) 1000000000 _ quoted 0
    rfl (.inr (by decide +kernel))
  exact ⟨quoted, kept.mpr fun _ => by decide +kernel⟩

-- Long 2.9 under a ceiling of 3, the put is sold: 0.48 more.
theorem short_put_over_ceiling :
    ∃ d ∈ decideOnTick sviQuoting (longTrader (29/10)) (putTick (1/5) (1/4)) 1000000000,
      d.side = .sell ∧ LotDelta 'P' (-12/25) ∧
        ¬(|filled (29/10) (-12/25) d.side| ≤ (longTrader (29/10)).deltaCeiling ∨
          |filled (29/10) (-12/25) d.side| ≤ |29/10|) := by
  have quoted : decideOnTick sviQuoting (longTrader (29/10)) (putTick (1/5) (1/4)) 1000000000 =
      [⟨.sell, 481/2000, none⟩] := by decide +kernel
  rw [quoted]
  refine ⟨_, List.mem_singleton_self _, rfl, ?_, ?_⟩
  · rw [lotDelta_put]
    constructor <;> norm_num
  · decide +kernel

end Corsair.Trader
