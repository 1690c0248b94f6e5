import Corsair.Daemon.Tasks
import Corsair.Expiry
import Corsair.Lib.Machine
import Corsair.Lib.Register
import Corsair.Span
import Mathlib.Algebra.Order.BigOperators.Group.Finset
import Mathlib.Tactic.NormNum

namespace Corsair.Daemon

open BrokerApi Book MarketData Corsair.Span

-- checker.rs
def IBKR_SCALE_LOWER : ℚ := 1/2
def IBKR_SCALE_UPPER : ℚ := 5/4

structure MarginCalibration where
  rawSynthetic : ℚ
  ibkrActual : ℚ
  scale : ℚ
  timestampNs : ℕ
  deriving DecidableEq

-- What a ConstraintChecker keeps beside its configuration.
structure MarginScale where
  ibkrScale : ℚ
  lastCalibration : Option MarginCalibration
  deriving DecidableEq

namespace MarginScale

def new : MarginScale := ⟨1, none⟩

def scale (c : MarginScale) (rawSynthetic : ℚ) : ℚ := rawSynthetic * c.ibkrScale

def bounded (ibkrActual rawSynthetic : ℚ) : ℚ :=
  let proposed := ibkrActual / rawSynthetic
  if proposed < IBKR_SCALE_LOWER ∨ IBKR_SCALE_UPPER < proposed then 1 else proposed

def updateCachedMargin (c : MarginScale) (ibkrActual rawSynthetic : ℚ) (timestampNs : ℕ) : MarginScale × ℚ :=
  if ibkrActual ≤ 0 ∨ rawSynthetic ≤ 0 then (c, c.ibkrScale)
  else
    let scale := bounded ibkrActual rawSynthetic
    ({ ibkrScale := scale, lastCalibration := some ⟨rawSynthetic, ibkrActual, scale, timestampNs⟩ }, scale)

end MarginScale

section Raw

variable (price : OptionPrice ℚ) (p : PortfolioState) (md : MarketDataState) (now : ℤ)

-- tasks.rs, compute_raw_synthetic_margin
def spanEntry (pos : Book.Position) : Option (String × SpanPosition ℚ) :=
  (Expiry.marginTte pos.expiry now).map fun t =>
    (pos.product,
      { strike := pos.strike
        right := pos.right.asChar
        t
        iv := ((HashMap.get p.registry pos.product).map (·.defaultIv)).getD (3/10)
        qty := pos.quantity })

def byProduct : HashMap String (List (SpanPosition ℚ)) :=
  HashMap.group Prod.fst (fun held entry => held ++ [entry.2]) [] (p.positions.filterMap (spanEntry p now))

def spanConfig (multiplier : ℚ) : SpanConfig ℚ where
  upScanPct := 5/100
  downScanPct := 5/100
  volScanPct := 25/100
  extremeMult := 2
  extremeCover := 35/100
  shortOptionMinimum := 50
  multiplier

def addMargin (total : ℚ) (entry : String × List (SpanPosition ℚ)) : ℚ :=
  match md.underlyingPrice entry.1, HashMap.get p.registry entry.1 with
  | some f, some info => total + (portfolioMargin price f (spanConfig info.multiplier) entry.2).totalMargin
  | _, _ => total

-- `entries` is the map's own order.
def marginOver (entries : List (String × List (SpanPosition ℚ))) : ℚ := entries.foldl (addMargin price p md) 0

def computeRawSyntheticMargin : ℚ :=
  if p.positions = [] then 0 else marginOver price p md (byProduct p now).items

end Raw

-- periodic_account_poll. The time the positions have left and the stamp are read one
-- after the other.
structure Polled where
  runtime : Runtime
  constraint : MarginScale

inductive PollEvent where
  | polled (answer : Except BrokerError AccountSnapshot) (now : ℤ) (stampNs : ℕ)
  | elsewhere (change : Runtime → Runtime)

def pollStep (price : OptionPrice ℚ) (s : Polled) : PollEvent → Polled × List MarginCalibration
  | .polled answer now stampNs =>
    let polled := { s with runtime := accountPoll s.runtime answer }
    match answer with
    | .error _ => (polled, [])
    | .ok snap =>
      let raw := computeRawSyntheticMargin price s.runtime.portfolio s.runtime.marketData now
      if 0 < snap.maintenanceMargin ∧ 0 < raw then
        let constraint := (s.constraint.updateCachedMargin snap.maintenanceMargin raw stampNs).1
        ({ polled with constraint }, (constraint.lastCalibration).toList)
      else (polled, [])
  | .elsewhere change => ({ s with runtime := change s.runtime }, [])

-- The margin of a product on its own: what is expired, without a price or without a
-- configuration takes no part.
section Products

variable (price : OptionPrice ℚ) (p : PortfolioState) (md : MarketDataState) (now : ℤ)

def liveOf (product : String) : List (SpanPosition ℚ) :=
  ((p.positions.filterMap (spanEntry p now)).filter (·.1 = product)).map Prod.snd

def productMargin (product : String) : ℚ :=
  match md.underlyingPrice product, HashMap.get p.registry product with
  | some f, some info => (portfolioMargin price f (spanConfig info.multiplier) (liveOf p now product)).totalMargin
  | _, _ => 0

theorem portfolioMargin_nil (f : ℚ) (cfg : SpanConfig ℚ) : (portfolioMargin price f cfg []).totalMargin = 0 := by
  have level : (worst fun _ : Fin 16 => (0 : ℚ)).1 = 0 :=
    le_antisymm (worst_le_iff.mpr ⟨le_rfl, fun _ => le_rfl⟩) (worst_nonneg _)
  rw [totalMargin_floors]
  simp [sumsOf, Sums.zero, floors, level]

theorem marginOver_sum (entries : List (String × List (SpanPosition ℚ))) :
    marginOver price p md entries = (entries.map fun entry => addMargin price p md 0 entry).sum := by
  have sums : entries.foldl (addMargin price p md) 0 = 0 + (entries.map (addMargin price p md 0)).sum :=
    Register.foldl_field (addMargin price p md 0) id (fun total entry => by unfold addMargin; split <;> simp) entries 0
  simpa [marginOver] using sums

theorem byProduct_held {entry : String × List (SpanPosition ℚ)} (member : entry ∈ (byProduct p now).items) :
    entry.2 = liveOf p now entry.1 ∧ entry.1 ∈ p.positions.map Book.Position.product := by
  have held := HashMap.mem_items.mp member
  rw [byProduct, HashMap.get_gathered, Option.ite_none_right_eq_some] at held
  refine ⟨(Option.some.inj held.2).symm, ?_⟩
  obtain ⟨other, taken, same⟩ := List.mem_map.mp held.1
  obtain ⟨pos, position, made⟩ := List.mem_filterMap.mp taken
  obtain ⟨t, -, rfl⟩ := Option.map_eq_some_iff.mp made
  exact List.mem_map.mpr ⟨pos, position, same⟩

theorem byProduct_absent {product : String} (absent : product ∉ (byProduct p now).items.map Prod.fst) :
    liveOf p now product = [] := by
  have missing : (byProduct p now).get product = none := by
    cases found : (byProduct p now).get product with
    | none => rfl
    | some held => exact absurd (List.mem_map.mpr ⟨_, HashMap.mem_items.mpr found, rfl⟩) absent
  rw [byProduct, HashMap.get_gathered] at missing
  split at missing
  · cases missing
  · rename_i unlisted
    rw [liveOf, List.map_eq_nil_iff, List.filter_eq_nil_iff]
    intro entry member same
    exact unlisted (List.mem_map.mpr ⟨entry, member, of_decide_eq_true same⟩)

theorem raw_products :
    computeRawSyntheticMargin price p md now =
      ∑ product ∈ (p.positions.map Book.Position.product).toFinset, productMargin price p md now product := by
  unfold computeRawSyntheticMargin
  split
  · rename_i empty
    rw [empty]
    rfl
  · have own : (byProduct p now).items.map (addMargin price p md 0) =
        (byProduct p now).items.map fun entry => productMargin price p md now entry.1 := by
      apply List.map_congr_left
      intro entry member
      unfold addMargin productMargin
      rw [(byProduct_held p now member).1]
      split <;> simp
    rw [marginOver_sum, own]
    refine Register.sum_entries Prod.fst (HashMap.nodup_keys _) ?_ ?_
    · intro entry member
      exact List.mem_toFinset.mpr (byProduct_held p now member).2
    · intro product _ absent
      unfold productMargin
      split
      · rw [byProduct_absent p now absent, portfolioMargin_nil]
      · rfl

theorem productMargin_nonneg (product : String) : 0 ≤ productMargin price p md now product := by
  unfold productMargin
  split
  · rw [totalMargin_floors]
    exact (le_floors _ _ _).2.1
  · exact le_rfl

theorem productMargin_perm {q : PortfolioState} (shuffled : q.positions.Perm p.positions) (registry : q.registry = p.registry)
    (product : String) : productMargin price q md now product = productMargin price p md now product := by
  have entry : spanEntry q now = spanEntry p now := by
    funext pos
    rw [spanEntry, spanEntry, registry]
  have held : (liveOf q now product).Perm (liveOf p now product) := by
    unfold liveOf
    rw [entry]
    exact ((shuffled.filterMap _).filter _).map _
  have margins (f : ℚ) (cfg : SpanConfig ℚ) :
      portfolioMargin price f cfg (liveOf q now product) = portfolioMargin price f cfg (liveOf p now product) := by
    unfold portfolioMargin
    rw [sumsOf_congr price f cfg fun figure counted _ => exposure_perm figure counted held]
  simp only [productMargin, registry, margins]

end Products

-- What the raw margin is, whatever the order of the positions and of the maps.
structure RawMargin (price : OptionPrice ℚ) (p : PortfolioState) (md : MarketDataState) (now : ℤ) : Prop where
  products : computeRawSyntheticMargin price p md now =
    ∑ product ∈ (p.positions.map Book.Position.product).toFinset, productMargin price p md now product
  nonneg : 0 ≤ computeRawSyntheticMargin price p md now
  iterated : ∀ entries, entries.Perm (byProduct p now).items →
    marginOver price p md entries = computeRawSyntheticMargin price p md now
  shuffled : ∀ q : PortfolioState, q.positions.Perm p.positions → q.registry = p.registry →
    computeRawSyntheticMargin price q md now = computeRawSyntheticMargin price p md now

theorem raw_margin (price : OptionPrice ℚ) (p : PortfolioState) (md : MarketDataState) (now : ℤ) :
    RawMargin price p md now := by
  refine ⟨raw_products price p md now, ?_, ?_, ?_⟩
  · rw [raw_products]
    exact Finset.sum_nonneg fun product _ => productMargin_nonneg price p md now product
  · intro entries order
    have same : marginOver price p md entries = marginOver price p md (byProduct p now).items := by
      rw [marginOver_sum, marginOver_sum, (order.map _).sum_eq]
    rw [same, computeRawSyntheticMargin]
    split
    · rename_i empty
      simp [byProduct, empty, marginOver, HashMap.group, HashMap.items]
    · rfl
  · intro q order registry
    have products : (q.positions.map Book.Position.product).toFinset = (p.positions.map Book.Position.product).toFinset :=
      List.toFinset_eq_of_perm _ _ (order.map _)
    rw [raw_products, raw_products, products]
    exact Finset.sum_congr rfl fun product _ => productMargin_perm price p md now order registry product

-- A poll that says what the margin is, of a book that has some.
structure Calibrates (price : OptionPrice ℚ) (s : Polled) (event : PollEvent) (c : MarginCalibration) : Prop where
  polled : ∃ snap now, event = .polled (.ok snap) now c.timestampNs ∧ c.ibkrActual = snap.maintenanceMargin ∧
    c.rawSynthetic = computeRawSyntheticMargin price s.runtime.portfolio s.runtime.marketData now
  actual : 0 < c.ibkrActual
  raw : 0 < c.rawSynthetic
  scale : c.scale = MarginScale.bounded c.ibkrActual c.rawSynthetic

def MarginScale.of : Option MarginCalibration → MarginScale
  | none => .new
  | some c => ⟨c.scale, some c⟩

section Runs

variable {price : OptionPrice ℚ} {s : Polled}

theorem bounded_band (ibkrActual rawSynthetic : ℚ) :
    1/2 ≤ MarginScale.bounded ibkrActual rawSynthetic ∧ MarginScale.bounded ibkrActual rawSynthetic ≤ 5/4 := by
  unfold MarginScale.bounded IBKR_SCALE_LOWER IBKR_SCALE_UPPER
  dsimp only
  split
  · norm_num
  · rename_i inside
    rw [not_or, not_lt, not_lt] at inside
    exact inside

-- Where IBKR's figure is within the band of the raw one, the scale takes the one to the other.
theorem bounded_fits {ibkrActual rawSynthetic : ℚ} (positive : 0 < rawSynthetic) :
    rawSynthetic * MarginScale.bounded ibkrActual rawSynthetic =
      if 1/2 * rawSynthetic ≤ ibkrActual ∧ ibkrActual ≤ 5/4 * rawSynthetic then ibkrActual else rawSynthetic := by
  unfold MarginScale.bounded IBKR_SCALE_LOWER IBKR_SCALE_UPPER
  dsimp only
  simp only [div_lt_iff₀ positive, lt_div_iff₀ positive]
  by_cases inside : 1/2 * rawSynthetic ≤ ibkrActual ∧ ibkrActual ≤ 5/4 * rawSynthetic
  · rw [if_pos inside, if_neg (by rw [not_or, not_lt, not_lt]; exact inside), mul_div_cancel₀ _ positive.ne']
  · rw [if_neg inside, if_pos (by rw [← not_le, ← not_le, ← not_and_or]; exact inside), mul_one]

variable (price) in
theorem pollStep_calibrates (s : Polled) (event : PollEvent) :
    (∃ c, Calibrates price s event c ∧ (pollStep price s event).2 = [c] ∧
      (pollStep price s event).1.constraint = .of (some c)) ∨
    ((∀ c, ¬Calibrates price s event c) ∧ (pollStep price s event).2 = [] ∧
      (pollStep price s event).1.constraint = s.constraint) := by
  cases event with
  | elsewhere change =>
    refine .inr ⟨?_, rfl, rfl⟩
    intro c calibrates
    obtain ⟨snap, now, same, -⟩ := calibrates.polled
    cases same
  | polled answer now stampNs =>
    cases answer with
    | error e =>
      refine .inr ⟨?_, rfl, rfl⟩
      intro c calibrates
      obtain ⟨snap, now, same, -⟩ := calibrates.polled
      cases same
    | ok snap =>
      generalize found : computeRawSyntheticMargin price s.runtime.portfolio s.runtime.marketData now = raw
      by_cases usable : 0 < snap.maintenanceMargin ∧ 0 < raw
      · have updated : ¬(snap.maintenanceMargin ≤ 0 ∨ raw ≤ 0) := by
          rw [not_or, not_le, not_le]
          exact usable
        refine .inl ⟨⟨raw, snap.maintenanceMargin, MarginScale.bounded snap.maintenanceMargin raw, stampNs⟩,
          ⟨⟨snap, now, rfl, rfl, found.symm⟩, usable.1, usable.2, rfl⟩, ?_, ?_⟩
        · simp only [pollStep, found, if_pos usable, MarginScale.updateCachedMargin, if_neg updated]
          rfl
        · simp only [pollStep, found, if_pos usable, MarginScale.updateCachedMargin, if_neg updated]
          rfl
      · refine .inr ⟨?_, ?_, ?_⟩
        · intro c calibrates
          obtain ⟨other, later, same, actual, known⟩ := calibrates.polled
          cases same
          exact usable ⟨actual ▸ calibrates.actual, found ▸ known ▸ calibrates.raw⟩
        · simp only [pollStep, found, if_neg usable]
        · simp only [pollStep, found, if_neg usable]

theorem Calibrates.unique {event : PollEvent} {c d : MarginCalibration} (one : Calibrates price s event c)
    (other : Calibrates price s event d) : c = d := by
  obtain ⟨snap, now, same, actual, raw⟩ := one.polled
  obtain ⟨again, later, also, actual', raw'⟩ := other.polled
  rw [same] at also
  injection also with answer moment stamped
  injection answer with taken
  subst taken moment
  have scale : c.scale = d.scale := by rw [one.scale, other.scale, actual, actual', raw, raw']
  cases c
  cases d
  simp_all

theorem run_constraint (runtime : Runtime) (events : List PollEvent) :
    (Machine.after (pollStep price) ⟨runtime, .new⟩ events).constraint =
      .of (Machine.emitted (pollStep price) ⟨runtime, .new⟩ events).getLast? := by
  induction events using List.reverseRecOn with
  | nil => rfl
  | append_singleton events event given =>
    rw [Machine.emitted_append, Machine.after_append]
    simp only [Machine.emitted, Machine.after, List.append_nil]
    rcases pollStep_calibrates price (Machine.after (pollStep price) ⟨runtime, .new⟩ events) event with
      ⟨c, -, told, changed⟩ | ⟨-, told, same⟩
    · rw [told, changed, List.getLast?_concat]
    · rw [told, same, List.append_nil]
      exact given

end Runs

-- The scale is what the last usable poll made it, stays in its band, and fits the margin
-- it was taken from.
structure PollsCalibrate (price : OptionPrice ℚ) (facts : List MarginCalibration) (s : Polled) : Prop where
  last : s.constraint = .of facts.getLast?
  band : ∀ raw, 0 ≤ raw → 1/2 * raw ≤ s.constraint.scale raw ∧ s.constraint.scale raw ≤ 5/4 * raw
  step : ∀ event c, c ∈ (pollStep price s event).2 ↔ Calibrates price s event c
  fits : ∀ event c, Calibrates price s event c → (pollStep price s event).1.constraint.scale c.rawSynthetic =
    if 1/2 * c.rawSynthetic ≤ c.ibkrActual ∧ c.ibkrActual ≤ 5/4 * c.rawSynthetic then c.ibkrActual else c.rawSynthetic

-- Every run of account polls, whatever happens to the book and the market in between.
theorem polls_calibrate (price : OptionPrice ℚ) (runtime : Runtime) (events : List PollEvent) :
    let s := Machine.after (pollStep price) ⟨runtime, .new⟩ events
    PollsCalibrate price (Machine.emitted (pollStep price) ⟨runtime, .new⟩ events) s ∧
      ∀ now, RawMargin price s.runtime.portfolio s.runtime.marketData now := by
  intro s
  have last : s.constraint = .of (Machine.emitted (pollStep price) ⟨runtime, .new⟩ events).getLast? :=
    run_constraint runtime events
  have within : 1/2 ≤ s.constraint.ibkrScale ∧ s.constraint.ibkrScale ≤ 5/4 := by
    rw [last]
    cases found : (Machine.emitted (pollStep price) ⟨runtime, .new⟩ events).getLast? with
    | none => norm_num [MarginScale.of, MarginScale.new]
    | some c =>
      obtain ⟨past, event, rest, -, told⟩ := Machine.mem_emitted.mp (List.mem_of_getLast? found)
      rcases pollStep_calibrates price (Machine.after (pollStep price) ⟨runtime, .new⟩ past) event with
        ⟨other, calibrates, only, -⟩ | ⟨-, nothing, -⟩
      · rw [only, List.mem_singleton] at told
        rw [told]
        have band := bounded_band other.ibkrActual other.rawSynthetic
        rw [← calibrates.scale] at band
        exact band
      · rw [nothing] at told
        cases told
  refine ⟨⟨last, ?_, ?_, ?_⟩, fun now => raw_margin price _ _ now⟩
  · intro raw positive
    unfold MarginScale.scale
    rw [mul_comm raw]
    exact ⟨mul_le_mul_of_nonneg_right within.1 positive, mul_le_mul_of_nonneg_right within.2 positive⟩
  · intro event c
    rcases pollStep_calibrates price s event with ⟨other, calibrates, only, -⟩ | ⟨never, nothing, -⟩
    · rw [only, List.mem_singleton]
      constructor
      · rintro rfl
        exact calibrates
      · intro given
        exact given.unique calibrates
    · rw [nothing]
      constructor
      · intro told
        cases told
      · intro given
        exact absurd given (never c)
  · intro event c calibrates
    rcases pollStep_calibrates price s event with ⟨other, same, -, changed⟩ | ⟨never, -, -⟩
    · rw [changed, calibrates.unique same, ← bounded_fits same.raw, ← same.scale]
      rfl
    · exact absurd calibrates (never c)

end Corsair.Daemon
