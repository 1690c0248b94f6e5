import Corsair.Trader.QuoteDecision

namespace Corsair.QuoteDecision

open F64

section Halfway

variable {q : ℚ}

theorem roundHalfAway_neg (positive : 0 < q) : roundHalfAway (-q) = -roundHalfAway q := by
  rw [roundHalfAway, roundHalfAway, if_neg (by linarith), if_pos positive.le, neg_neg]

theorem roundHalfAway_floor (positive : 0 ≤ q) :
    roundHalfAway q = if q - ⌊q⌋ < 1/2 then ⌊q⌋ else ⌊q⌋ + 1 := by
  have below := Int.floor_le q
  have above := Int.lt_floor_add_one q
  rw [roundHalfAway, if_pos positive]
  split
  · rename_i lower
    rw [Int.floor_eq_iff]
    constructor <;> linarith
  · rename_i upper
    rw [Int.floor_eq_iff]
    push_cast
    constructor <;> linarith

theorem halfway_even {n : ℕ} (halfway : q = 2 * n + 1/2) : halfEven q = 2 * n ∧ roundHalfAway q = 2 * n + 1 := by
  have counted : (0 : ℚ) ≤ n := Nat.cast_nonneg n
  have floor : ⌊q⌋ = 2 * n := by
    rw [Int.floor_eq_iff, halfway]
    push_cast
    constructor <;> linarith
  have rest : q - ⌊q⌋ = 1/2 := by
    rw [floor, halfway]
    push_cast
    ring
  constructor
  · simp only [halfEven, rest, lt_irrefl, if_false]
    rw [if_pos (by omega), floor]
  · rw [roundHalfAway_floor (by linarith), rest, if_neg (lt_irrefl _), floor]

theorem roundings_pos (positive : 0 ≤ q) (apart : ∀ n : ℕ, q ≠ 2 * n + 1/2) : roundHalfAway q = halfEven q := by
  rw [roundHalfAway_floor positive]
  unfold halfEven
  dsimp only
  split_ifs with lower upper even
  · rfl
  · rfl
  · exfalso
    have tie : q - ⌊q⌋ = 1/2 := le_antisymm (not_lt.mp upper) (not_lt.mp lower)
    have floor := Int.floor_nonneg.mpr positive
    refine apart (⌊q⌋ / 2).toNat ?_
    have whole : (⌊q⌋ : ℚ) = 2 * ((⌊q⌋ / 2).toNat : ℕ) := by
      have split : ⌊q⌋ = 2 * ((⌊q⌋ / 2).toNat : ℤ) := by omega
      exact_mod_cast split
    linarith
  · rfl

theorem roundings_agree (apart : ∀ n : ℕ, |q| ≠ 2 * n + 1/2) : roundHalfAway q = halfEven q := by
  rcases le_or_gt 0 q with positive | negative
  · rw [abs_of_nonneg positive] at apart
    exact roundings_pos positive apart
  · rw [abs_of_neg negative] at apart
    have mirrored := roundings_pos (by linarith) apart
    rw [halfEven_neg] at mirrored
    have away := roundHalfAway_neg (neg_pos.mpr negative)
    rw [neg_neg] at away
    omega

theorem roundings_apart {n : ℕ} (halfway : |q| = 2 * n + 1/2) :
    |halfEven q| = 2 * n ∧ |roundHalfAway q| = 2 * n + 1 := by
  rcases le_or_gt 0 q with positive | negative
  · rw [abs_of_nonneg positive] at halfway
    obtain ⟨even, away⟩ := halfway_even halfway
    rw [even, away]
    constructor <;> exact abs_of_nonneg (by omega)
  · rw [abs_of_neg negative] at halfway
    obtain ⟨even, away⟩ := halfway_even halfway
    have mirrored := roundHalfAway_neg (neg_pos.mpr negative)
    rw [halfEven_neg] at even
    rw [neg_neg] at mirrored
    rw [mirrored, ← abs_neg (halfEven q), even, away, abs_neg]
    constructor <;> exact abs_of_nonneg (by omega)

end Halfway

-- The target is a finite number of ticks, and not halfway above an even number of them.
def Rounds (target tickSize : F64) : Prop :=
  ∃ q, target / tickSize = finite q ∧ ∀ n : ℕ, |q| ≠ 2 * n + 1/2

section Quantized

variable {target tickSize : F64}

-- The neighbours of a tie are different doubles.
theorem products_apart {p t q : ℚ} {n : ℕ} (stored : Stored (finite p)) (double : Stored (finite t)) (unit : t ≠ 0)
    (ratio : nearest (p / t) = q) (small : |q| < 2 ^ 52) (halfway : |q| = 2 * n + 1/2) :
    ofRat (halfEven q * t) ≠ ofRat (roundHalfAway q * t) := by
  obtain ⟨even, away⟩ := roundings_apart halfway
  have positive : 0 < |t| := abs_pos.mpr unit
  have few : (2 * n : ℤ) + 1 < 2 ^ 52 := by
    rw [halfway] at small
    have fits : (2 * n : ℚ) < 2 ^ 52 := by linarith
    have whole : (2 * n : ℤ) < 2 ^ 52 := by exact_mod_cast fits
    omega
  have lower : nearest |halfEven q * t| = nearest ((2 * n : ℤ) * |t|) := by
    rw [abs_mul, ← Int.cast_abs, even]
  have upper : nearest |roundHalfAway q * t| = nearest (((2 * n : ℤ) + 1) * |t|) := by
    rw [abs_mul, ← Int.cast_abs, away]
    push_cast
    rfl
  have differ := nearest_steps (u := |t|) (by rw [nearest_abs, (double t rfl).1]) positive (by omega) few
  rw [← lower, ← upper, nearest_abs, nearest_abs] at differ
  -- The even one is no further out than the target.
  have inside : (2 * n : ℤ) * |t| ≤ |p| := by
    rw [← le_div_iff₀ positive]
    by_contra below
    have rounded := nearest_mono (not_le.mp below).le
    rw [nearest_int (abs_lt.mpr ⟨by omega, by omega⟩), ← abs_div, nearest_abs, ratio, halfway] at rounded
    push_cast at rounded
    linarith
  have within : |nearest (halfEven q * t)| < 2 ^ 1024 := by
    rw [← nearest_abs, lower]
    have rounded := nearest_mono inside
    rw [nearest_abs, (stored p rfl).1] at rounded
    exact rounded.trans_lt (stored p rfl).2
  intro same
  rw [ofRat_nearest, ofRat_nearest, if_neg (not_le.mpr within)] at same
  split at same
  · cases same
  · rw [F64.finite.inj same] at differ
    exact absurd differ (lt_irrefl _)

theorem finite_div {p : ℚ} (ratio : target / tickSize = finite p) : tickSize.isZero = false := by
  cases tickSize with
  | nan => rfl
  | infinite negative => rfl
  | finite t =>
    apply decide_eq_false
    rintro rfl
    change div target (finite 0) = finite p at ratio
    cases target with
    | nan => cases ratio
    | infinite negative => cases ratio
    | finite q =>
      rw [div, if_pos rfl] at ratio
      split at ratio <;> cases ratio

theorem pyQuantized_of_ratio {q : ℚ} (ratio : target / tickSize = finite q) :
    pyQuantized target tickSize = .ok (finite (halfEven q) * tickSize) := by
  have stored := stored_div target tickSize
  rw [ratio] at stored
  have whole : floatOfInt (halfEven q) = some (finite (halfEven q)) := by
    rw [floatOfInt, ofRat_halfEven stored]
    rfl
  have divided : pyDivide target tickSize = .ok (finite q) := by
    rw [pyDivide, finite_div ratio, ratio]
    rfl
  have multiplied : pyTimes (halfEven q) tickSize = .ok (finite (halfEven q) * tickSize) := by
    rw [pyTimes, whole]
  rw [pyQuantized, divided]
  exact multiplied

-- Python rounds a finite ratio only.
theorem ratio_of_pyQuantized {price : F64} (rounded : pyQuantized target tickSize = .ok price) :
    ∃ q, target / tickSize = finite q := by
  cases ratio : target / tickSize with
  | finite q => exact ⟨q, rfl⟩
  | infinite negative =>
    rw [pyQuantized, pyDivide, ratio] at rounded
    split at rounded <;> cases rounded
  | nan =>
    rw [pyQuantized, pyDivide, ratio] at rounded
    split at rounded <;> cases rounded

theorem quantized_iff (stored : Stored target) (double : Stored tickSize) :
    pyQuantized target tickSize = .ok (quantized target tickSize) ↔ Rounds target tickSize := by
  constructor
  · intro same
    obtain ⟨q, ratio⟩ := ratio_of_pyQuantized same
    refine ⟨q, ratio, ?_⟩
    intro n halfway
    rw [pyQuantized_of_ratio ratio, quantized, ratio, F64.round] at same
    have equal := Except.ok.inj same
    have quotient : Stored (finite q) := ratio ▸ stored_div target tickSize
    have fraction : ∀ k : ℤ, q ≠ k := by
      rintro k rfl
      have odd : |k| * 2 = 4 * n + 1 := by
        have doubled : (|k| : ℚ) * 2 = 4 * n + 1 := by linarith
        exact_mod_cast doubled
      omega
    have small := fraction_small (quotient q rfl).1 fraction
    have unit := finite_div ratio
    cases target with
    | nan => cases tickSize <;> cases ratio
    | infinite sign => cases tickSize <;> cases ratio
    | finite p =>
      cases tickSize with
      | nan => cases ratio
      | infinite sign =>
        obtain rfl : 0 = q := F64.finite.inj ratio
        exact fraction 0 Int.cast_zero.symm
      | finite t =>
        have nonzero : t ≠ 0 := of_decide_eq_false unit
        have rounded : ofRat (p / t) = finite q := by
          change div (finite p) (finite t) = finite q at ratio
          rwa [div, if_neg nonzero] at ratio
        rw [ofRat_nearest] at rounded
        split at rounded
        · cases rounded
        · exact products_apart stored double nonzero (F64.finite.inj rounded) small halfway equal
  · intro given
    obtain ⟨q, ratio, apart⟩ := given
    rw [pyQuantized_of_ratio ratio, quantized, ratio, F64.round, roundings_agree apart]

end Quantized

-- What a side of the quote comes to before the price is rounded, which both deciders work out alike.
inductive Aim where
  | unknown | nonpositive
  | crossing (target : F64)
  | placing (target : F64)

def aim (side : String) (theo edge : F64) (marketBid marketAsk : Option F64) : Aim :=
  if side = "BUY" then
    if theo - edge ≤ 0 then .nonpositive
    else if ∃ ask ∈ marketAsk, ask.positive ∧ ask ≤ theo - edge then .crossing (theo - edge)
    else .placing (theo - edge)
  else if side = "SELL" then
    if ∃ bid ∈ marketBid, bid.positive ∧ theo + edge ≤ bid then .crossing (theo + edge)
    else .placing (theo + edge)
  else .unknown

def Aim.verdict (side : String) (rounded : F64 → Except PyError F64) :
    Aim → Except PyError (Action × Reason × Option F64)
  | .unknown => .ok (.skip, .unknownSide, none)
  | .nonpositive => .ok (.skip, .targetNonpositive, none)
  | .crossing target => .ok (.skip, if side = "BUY" then .wouldCrossAsk else .wouldCrossBid, some target)
  | .placing target =>
    (rounded target).map fun price => (.place, if side = "BUY" then .edgeBelowTheo else .edgeAboveTheo, some price)

-- The two roundings of what is aimed at come to the same.
def Aim.Meets (tickSize : F64) : Aim → Aim → Prop
  | .placing one, .placing other => pyQuantized other tickSize = .ok (quantized one tickSize)
  | one, other => one = other

section Sides

variable {side : String} {theo edge tickSize : F64} {marketBid marketAsk : Option F64}

theorem rustSide_aim :
    .ok (rustSide side theo edge tickSize marketBid marketAsk) =
      (aim side theo edge marketBid marketAsk).verdict side fun target => .ok (quantized target tickSize) := by
  by_cases buy : side = "BUY"
  · simp only [rustSide, aim, if_pos buy]
    by_cases low : theo - edge ≤ 0
    · simp [low, Aim.verdict]
    · cases marketAsk with
      | none => simp [low, Aim.verdict, buy, Except.map]
      | some ask => by_cases crosses : ask.positive = true ∧ ask ≤ theo - edge <;>
          simp [low, crosses, Aim.verdict, buy, Except.map]
  · by_cases sell : side = "SELL"
    · simp only [rustSide, aim, if_neg buy, if_pos sell]
      cases marketBid with
      | none => simp [Aim.verdict, sell, Except.map]
      | some bid => by_cases crosses : bid.positive = true ∧ theo + edge ≤ bid <;>
          simp [crosses, Aim.verdict, sell, Except.map]
    · simp only [rustSide, aim, if_neg buy, if_neg sell, Aim.verdict]

theorem pySide_aim :
    pySide side theo edge tickSize marketBid marketAsk =
      (aim side theo edge marketBid marketAsk).verdict side fun target => pyQuantized target tickSize := by
  by_cases buy : side = "BUY"
  · simp only [pySide, aim, if_pos buy]
    split_ifs
    · rfl
    · simp only [Aim.verdict, if_pos buy]
    · simp only [Aim.verdict, if_pos buy]
      cases pyQuantized (theo - edge) tickSize <;> rfl
  · by_cases sell : side = "SELL"
    · simp only [pySide, aim, if_neg buy, if_pos sell]
      split_ifs
      · simp only [Aim.verdict, if_neg buy]
      · simp only [Aim.verdict, if_neg buy]
        cases pyQuantized (theo + edge) tickSize <;> rfl
    · simp only [pySide, aim, if_neg buy, if_neg sell, Aim.verdict]

theorem aim_stored {target : F64} (placing : aim side theo edge marketBid marketAsk = .placing target) :
    Stored target := by
  unfold aim at placing
  split_ifs at placing
  · cases placing
    exact stored_add _ _
  · cases placing
    exact stored_add _ _

-- The verdicts are the same exactly where the two aims meet.
theorem verdict_iff (one other : Aim) :
    (one.verdict side fun target => .ok (quantized target tickSize)) =
        (other.verdict side fun target => pyQuantized target tickSize) ↔ one.Meets tickSize other := by
  cases other with
  | unknown => cases one <;> simp [Aim.verdict, Aim.Meets, Except.map]
  | nonpositive => cases one <;> simp [Aim.verdict, Aim.Meets, Except.map]
  | crossing target => cases one <;> simp [Aim.verdict, Aim.Meets, Except.map]
  | placing target =>
    cases rounded : pyQuantized target tickSize <;> cases one <;>
      simp [Aim.verdict, Aim.Meets, Except.map, rounded, eq_comm]

theorem meets_self (double : Stored tickSize) :
    (aim side theo edge marketBid marketAsk).Meets tickSize (aim side theo edge marketBid marketAsk) ↔
      ∀ target, aim side theo edge marketBid marketAsk = .placing target → Rounds target tickSize := by
  cases aimed : aim side theo edge marketBid marketAsk with
  | unknown => simp [Aim.Meets]
  | nonpositive => simp [Aim.Meets]
  | crossing target => simp [Aim.Meets]
  | placing target =>
    rw [Aim.Meets, quantized_iff (aim_stored aimed) double]
    constructor
    · intro rounds other same
      cases same
      exact rounds
    · intro rounds
      exact rounds target rfl

-- The reasons of a side are none of those that come before it.
def Reason.ofSide : Reason → Bool
  | .unknownSide | .targetNonpositive | .wouldCrossAsk | .wouldCrossBid | .edgeBelowTheo | .edgeAboveTheo => true
  | _ => false

theorem verdict_reason {rounded : F64 → Except PyError F64} {a : Aim} {verdict : Action × Reason × Option F64}
    (given : a.verdict side rounded = .ok verdict) : verdict.2.1.ofSide = true := by
  cases a with
  | unknown => cases given; rfl
  | nonpositive => cases given; rfl
  | crossing target =>
    cases given
    dsimp only
    split <;> rfl
  | placing target =>
    cases price : rounded target with
    | error e =>
      rw [Aim.verdict, price] at given
      cases given
    | ok price' =>
      rw [Aim.verdict, price] at given
      cases given
      dsimp only
      split <;> rfl

theorem rustSide_reason : (rustSide side theo edge tickSize marketBid marketAsk).2.1.ofSide = true :=
  verdict_reason rustSide_aim.symm

end Sides

section Chains

variable {pricing : Pricing} {input : Input} {tte : F64}

abbrev Input.edge (input : Input) : F64 := F64.ofRat input.minEdgeTicks * input.tickSize

abbrev Input.aim (input : Input) (theo : F64) : Aim :=
  QuoteDecision.aim input.side theo input.edge input.marketBid input.marketAsk

abbrev Pricing.theoOf (pricing : Pricing) (input : Input) (tte iv : F64) : F64 :=
  pricing.black76Price input.forward input.strike tte iv 0 input.right

-- The vol that a delegated call computes.
def delegatedVol (pricing : Pricing) (input : Input) (tte : F64) : Option F64 :=
  if (input.volParams.getD []).lookup "model" = some (.text "sabr") ∧
      -2^31 ≤ input.minEdgeTicks ∧ input.minEdgeTicks < 2^31 then do
    let params ← input.volParams
    let alpha ← extracted params "alpha"
    let beta ← extracted params "beta"
    let rho ← extracted params "rho"
    let nu ← extracted params "nu"
    some (pricing.sabrImpliedVol input.forward input.strike tte alpha beta rho nu)
  else none

abbrev Pricing.quote (pricing : Pricing) (input : Input) (tte iv : F64) : Decision :=
  volQuote pricing input.forward input.strike input.expiry input.right input.side input.marketBid input.marketAsk
    input.minEdgeTicks input.tickSize tte iv

theorem delegated_vol :
    delegated pricing input tte = (delegatedVol pricing input tte).map (pricing.quote input tte) := by
  unfold delegated delegatedVol
  split
  · rename_i calls
    cases given : input.volParams with
    | none =>
      rw [given] at calls
      cases calls.1
    | some params =>
      rw [given] at calls
      have model : params.lookup "model" = some (.text "sabr") := calls.1
      simp only [decideQuote, model, if_true, Option.bind_eq_bind, Option.bind_some]
      cases extracted params "alpha" with
      | none => rfl
      | some alpha =>
        cases extracted params "beta" with
        | none => rfl
        | some beta =>
          cases extracted params "rho" with
          | none => rfl
          | some rho => cases extracted params "nu" <;> rfl
  · rfl

theorem delegatedVol_some {iv : F64} (given : delegatedVol pricing input tte = some iv) :
    ∃ params alpha beta rho nu, input.volParams = some params ∧ params.lookup "model" = some (.text "sabr") ∧
      (-2^31 ≤ input.minEdgeTicks ∧ input.minEdgeTicks < 2^31) ∧
      extracted params "alpha" = some alpha ∧ extracted params "beta" = some beta ∧
      extracted params "rho" = some rho ∧ extracted params "nu" = some nu ∧
      pricing.sabrImpliedVol input.forward input.strike tte alpha beta rho nu = iv := by
  unfold delegatedVol at given
  split at given
  · rename_i calls
    obtain ⟨params, known, given⟩ := Option.bind_eq_some_iff.mp given
    obtain ⟨alpha, first, given⟩ := Option.bind_eq_some_iff.mp given
    obtain ⟨beta, second, given⟩ := Option.bind_eq_some_iff.mp given
    obtain ⟨rho, third, given⟩ := Option.bind_eq_some_iff.mp given
    obtain ⟨nu, fourth, given⟩ := Option.bind_eq_some_iff.mp given
    rw [known] at calls
    exact ⟨params, alpha, beta, rho, nu, known, calls.1, calls.2, first, second, third, fourth, Option.some.inj given⟩
  · cases given

theorem floated_of_extracted {params : VolParams} {key : String} {x : F64} (given : extracted params key = some x) :
    floated pricing params key = some x := by
  obtain ⟨value, found, read⟩ := Option.bind_eq_some_iff.mp given
  rw [floated, found]
  cases value with
  | number y => exact read
  | whole n => exact read
  | text s => cases read
  | other => cases read

theorem computeTheo_vol {params : VolParams} {iv : F64} (given : delegatedVol pricing input tte = some iv)
    (known : input.volParams = some params) :
    computeTheo pricing input.forward input.strike tte input.right params =
      if input.forward ≤ 0 ∨ input.strike ≤ 0 ∨ tte ≤ 0 then none
      else if iv ≤ 0 ∨ iv = nan then none
      else if pricing.theoOf input tte iv ≤ 0 then none else some (iv, pricing.theoOf input tte iv) := by
  obtain ⟨others, alpha, beta, rho, nu, same, model, _, first, second, third, fourth, vol⟩ := delegatedVol_some given
  obtain rfl := Option.some.inj (known.symm.trans same)
  unfold computeTheo
  split
  · rfl
  · simp only [model, floated_of_extracted first, floated_of_extracted second, floated_of_extracted third,
      floated_of_extracted fourth, if_true, Option.bind_eq_bind, Option.bind_some, vol]

theorem pyTimes_small {n : ℤ} (lower : -2^31 ≤ n) (upper : n < 2^31) (x : F64) :
    pyTimes n x = .ok (F64.ofRat n * x) := by
  have exact : ofRat n = finite n := ofRat_int (abs_lt.mpr ⟨by omega, by omega⟩)
  rw [pyTimes, floatOfInt, exact]
  rfl

-- The pure-Python path from the theo on.
def pyVerdict (input : Input) : Option (F64 × F64) → Except PyError (Action × Reason × Option F64)
  | none => .ok (.skip, .theoUnavailable, none)
  | some (_, theo) =>
    if ¬ live input.marketBid ∨ ¬ live input.marketAsk then .ok (.skip, .oneSidedOrDark, none)
    else if thinBook input then .ok (.skip, .thinBook, none)
    else match forwardDrift input with
      | .error e => .error e
      | .ok (some _) => .ok (.skip, .forwardDrift, none)
      | .ok none => (input.aim theo).verdict input.side fun target => pyQuantized target input.tickSize

theorem pyDecide_verdict {params : VolParams} (known : input.volParams = some params) (filled : params ≠ [])
    (lower : -2^31 ≤ input.minEdgeTicks) (upper : input.minEdgeTicks < 2^31) :
    (pyDecide pricing input tte).map Decision.verdict = pyVerdict input (pyTheo pricing input tte params) := by
  cases params with
  | nil => exact absurd rfl filled
  | cons first rest =>
    simp only [pyDecide, known]
    cases pyTheo pricing input tte (first :: rest) with
    | none => rfl
    | some priced =>
      obtain ⟨iv, theo⟩ := priced
      simp only [pyVerdict]
      split
      · rfl
      split
      · rfl
      cases forwardDrift input with
      | error e => rfl
      | ok drift =>
        cases drift with
        | some d => rfl
        | none =>
          rw [← pySide_aim, pyTimes_small lower upper]
          change Except.map _
            ((pySide input.side theo input.edge input.tickSize input.marketBid input.marketAsk).bind _) = _
          cases pySide input.side theo input.edge input.tickSize input.marketBid input.marketAsk <;> rfl

theorem quote_verdict (iv : F64) :
    (pricing.quote input tte iv).verdict =
      if iv ≤ 0 ∨ iv = nan then (.skip, .ivInvalid, none)
      else if pricing.theoOf input tte iv ≤ 0 then (.skip, .theoUnavailable, none)
      else if ¬ live input.marketBid ∨ ¬ live input.marketAsk then (.skip, .oneSidedOrDark, none)
      else rustSide input.side (pricing.theoOf input tte iv) input.edge input.tickSize input.marketBid
        input.marketAsk := by
  unfold Pricing.quote volQuote
  split
  · rfl
  dsimp only
  split
  · rfl
  split <;> rfl

-- Past the theo, the two deciders come to the same.
theorem sides_iff {theo : F64} {priced : F64 × F64} (bid : live input.marketBid = true)
    (ask : live input.marketAsk = true) :
    .ok (rustSide input.side theo input.edge input.tickSize input.marketBid input.marketAsk) =
        pyVerdict input (some priced) ↔
      thinBook input = false ∧ forwardDrift input = .ok none ∧
        (input.aim theo).Meets input.tickSize (input.aim priced.2) := by
  have reason := @rustSide_reason input.side theo input.edge input.tickSize input.marketBid input.marketAsk
  have lit : ¬ (¬ live input.marketBid = true ∨ ¬ live input.marketAsk = true) := by simp [bid, ask]
  rw [pyVerdict, if_neg lit]
  cases thin : thinBook input with
  | true =>
    simp only [if_true, Bool.true_eq_false, false_and, iff_false]
    intro same
    rw [Except.ok.inj same] at reason
    cases reason
  | false =>
    simp only [Bool.false_eq_true, if_false, true_and]
    cases forwardDrift input with
    | error e => simp
    | ok drift =>
      cases drift with
      | none =>
        rw [rustSide_aim]
        simpa using verdict_iff (input.aim theo) (input.aim priced.2)
      | some d =>
        simp only [Except.ok.injEq, reduceCtorEq, false_and, iff_false]
        intro same
        rw [same] at reason
        cases reason

theorem market_iff {theo : F64} {priced : F64 × F64} :
    .ok (if ¬ live input.marketBid ∨ ¬ live input.marketAsk then (.skip, .oneSidedOrDark, none)
        else rustSide input.side theo input.edge input.tickSize input.marketBid input.marketAsk) =
        pyVerdict input (some priced) ↔
      (live input.marketBid → live input.marketAsk → thinBook input = false ∧ forwardDrift input = .ok none ∧
        (input.aim theo).Meets input.tickSize (input.aim priced.2)) := by
  by_cases dark : ¬ live input.marketBid ∨ ¬ live input.marketAsk
  · rw [if_pos dark, pyVerdict, if_pos dark]
    refine iff_of_true rfl ?_
    intro bid ask
    simp [bid, ask] at dark
  · have bid : live input.marketBid = true := not_not.mp fun out => dark (.inl out)
    have ask : live input.marketAsk = true := not_not.mp fun out => dark (.inr out)
    rw [if_neg dark, sides_iff bid ask]
    simp only [bid, ask, true_implies]

-- When the deciders agree on a delegated call.
def Agrees (pricing : Pricing) (input : Input) (tte iv : F64) : Prop :=
  let theo := pricing.theoOf input tte iv
  ¬ (iv ≤ 0 ∨ iv = nan) ∧
  (theo ≤ 0 → precomputed input = none) ∧
  (¬ theo ≤ 0 → precomputed input = none → ¬ (input.forward ≤ 0 ∨ input.strike ≤ 0 ∨ tte ≤ 0)) ∧
  (¬ theo ≤ 0 → live input.marketBid → live input.marketAsk →
    thinBook input = false ∧ forwardDrift input = .ok none ∧
    match precomputed input with
    | none => ∀ target, input.aim theo = .placing target → Rounds target input.tickSize
    | some (_, other) => (input.aim theo).Meets input.tickSize (input.aim other))

theorem pyVerdict_reason {priced : Option (F64 × F64)} {verdict : Action × Reason × Option F64}
    (given : pyVerdict input priced = .ok verdict) :
    verdict.2.1 ≠ .ivInvalid ∧ (verdict.2.1 = .theoUnavailable → priced = none) := by
  cases priced with
  | none =>
    cases given
    exact ⟨by decide, fun _ => rfl⟩
  | some p =>
    obtain ⟨iv, theo⟩ := p
    have other : verdict.2.1 ≠ .ivInvalid ∧ verdict.2.1 ≠ .theoUnavailable := by
      simp only [pyVerdict] at given
      split at given
      · cases given
        decide
      split at given
      · cases given
        decide
      split at given
      · cases given
      · cases given
        decide
      · have reason := verdict_reason given
        constructor <;> rintro same <;> rw [same] at reason <;> cases reason
    exact ⟨other.1, fun same => absurd same other.2⟩

theorem chains_agree (double : Stored input.tickSize) {iv : F64} (given : delegatedVol pricing input tte = some iv) :
    .ok (pricing.quote input tte iv).verdict = (pyDecide pricing input tte).map Decision.verdict ↔
      Agrees pricing input tte iv := by
  obtain ⟨params, alpha, beta, rho, nu, known, model, ⟨lower, upper⟩, -⟩ := delegatedVol_some given
  have filled : params ≠ [] := by
    rintro rfl
    cases model
  rw [pyDecide_verdict known filled lower upper, quote_verdict, pyTheo, computeTheo_vol given known, Agrees]
  by_cases bad : iv ≤ 0 ∨ iv = nan
  · simp only [bad, if_true, not_true_eq_false, false_and, iff_false]
    intro same
    exact (pyVerdict_reason same.symm).1 rfl
  simp only [bad, if_false, not_false_eq_true, true_and]
  by_cases worthless : pricing.theoOf input tte iv ≤ 0
  · simp only [worthless, if_true, not_true_eq_false, true_implies, false_implies, and_true]
    cases pre : precomputed input with
    | none => simp [pyVerdict]
    | some priced =>
      simp only [Option.some_or, reduceCtorEq, iff_false]
      intro same
      cases (pyVerdict_reason same.symm).2 rfl
  · simp only [worthless, if_false, not_false_eq_true, true_implies, false_implies, true_and]
    by_cases guards : precomputed input = none ∧ (input.forward ≤ 0 ∨ input.strike ≤ 0 ∨ tte ≤ 0)
    · -- Only Python looks at the inputs of the theo.
      simp only [guards.1, guards.2, if_true, Option.or_none, pyVerdict, not_true_eq_false, true_implies,
        false_and, iff_false, Except.ok.injEq]
      intro same
      split at same
      · cases same
      · have reason := @rustSide_reason input.side (pricing.theoOf input tte iv) input.edge input.tickSize
          input.marketBid input.marketAsk
        rw [same] at reason
        cases reason
    · cases pre : precomputed input with
      | none =>
        have passed : ¬ (input.forward ≤ 0 ∨ input.strike ≤ 0 ∨ tte ≤ 0) := fun failed => guards ⟨pre, failed⟩
        rw [if_neg passed, Option.none_or, market_iff]
        simp only [passed, not_false_eq_true, true_implies, true_and, meets_self double]
      | some priced =>
        rw [Option.some_or, market_iff]
        simp only [reduceCtorEq, false_implies, true_and]

theorem quote_reason (iv : F64) : (pricing.quote input tte iv).reason ≠ .modelNotInRust := by
  have verdict := @quote_verdict pricing input tte iv
  have reason : (pricing.quote input tte iv).reason = (pricing.quote input tte iv).verdict.2.1 := rfl
  rw [reason, verdict]
  split_ifs
  · decide
  · decide
  · decide
  · intro same
    have sided := @rustSide_reason input.side (pricing.theoOf input tte iv) input.edge input.tickSize input.marketBid
      input.marketAsk
    rw [same] at sided
    cases sided

end Chains

-- Delegated or not, a decision comes to the same exactly where the two chains agree on it.
theorem deciders_agree_iff (pricing : Pricing) (input : Input) (double : Stored input.tickSize) :
    (decide pricing true input).map Decision.verdict = (decide pricing false input).map Decision.verdict ↔
      ∀ tte iv, yearsToExpiry pricing input = some tte → delegatedVol pricing input tte = some iv →
        Agrees pricing input tte iv := by
  cases years : yearsToExpiry pricing input with
  | none => simp [decide, years]
  | some tte =>
    cases given : delegatedVol pricing input tte with
    | none =>
      have same : decide pricing true input = decide pricing false input := by
        simp [decide, years, delegated_vol, given]
      refine iff_of_true (congrArg _ same) ?_
      intro other iv known vol
      cases known
      rw [given] at vol
      cases vol
    | some iv =>
      have rust : decide pricing true input = .ok (pricing.quote input tte iv) := by
        simp [decide, years, delegated_vol, given, quote_reason]
      have python : decide pricing false input = pyDecide pricing input tte := by
        simp [decide, years]
      rw [rust, python]
      change Except.ok (pricing.quote input tte iv).verdict = _ ↔ _
      rw [chains_agree double given]
      constructor
      · intro agrees other vol known quoted
        cases known
        rw [given] at quoted
        cases quoted
        exact agrees
      · intro agrees
        exact agrees tte iv rfl given

def sabrParams : VolParams :=
  [("model", .text "sabr"), ("alpha", .number (.ofRat (3/10))), ("beta", .number (.ofRat (1/2))),
    ("rho", .number 0), ("nu", .number (.ofRat (1/2)))]

-- What the two functions answer for a call at its expiry, or as good as there.
def expiredPricing : Pricing :=
  { sabrImpliedVol := fun _ _ _ alpha _ _ _ => alpha
    sviImpliedVol := fun _ _ _ _ _ _ _ _ => .finite (1/100)
    black76Price := fun forward strike _ _ _ _ => if strike ≤ forward then forward - strike else 0
    timeToExpiryYears := fun _ => none
    floatOfText := fun _ => none }

def expiredCall : Input :=
  { forward := .ofRat (13/2), strike := .ofRat 6, expiry := "20260526", right := "C", side := "BUY",
    volParams := some sabrParams, marketBid := some (.ofRat (1/10)), marketAsk := some (.ofRat (11/20)),
    minEdgeTicks := 2, tickSize := .ofRat (1/2000), tte := some 0 }

-- Half a minute from its expiry, a call in the money is worth what it is at it, and at
-- beta 1 and nu 0 the SABR vol is alpha.
def expiringCall : Input :=
  { expiredCall with
    volParams := some [("model", .text "sabr"), ("alpha", .number (.ofRat (3/10))), ("beta", .number (.ofRat 1)),
      ("rho", .number 0), ("nu", .number 0)]
    tte := some (.ofRat (1/1000000)) }

theorem deciders_agree_expiring :
    (decide expiredPricing true expiringCall).map (·.action) = .ok .place ∧
      Agrees expiredPricing expiringCall (.ofRat (1/1000000)) (.ofRat (3/10)) :=
  ⟨by decide +kernel, (deciders_agree_iff expiredPricing expiringCall (stored_ofRat _)).mp (by decide +kernel)
    _ _ (by decide +kernel) (by decide +kernel)⟩

-- An expired option in the money is bought below its intrinsic value by one, and skipped by the other.
theorem expired_call :
    (decide expiredPricing true expiredCall).map Decision.verdict ≠
      (decide expiredPricing false expiredCall).map Decision.verdict := by
  decide +kernel

end Corsair.QuoteDecision
