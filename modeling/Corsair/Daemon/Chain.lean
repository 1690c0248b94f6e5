import Corsair.Expiry
import Corsair.MarketData

namespace Corsair.Daemon

open BrokerApi MarketData Expiry

-- A point of the fit: strike, iv and time to expiry.
abbrev ChainPoint := ℚ × ℚ × ℚ

section Snapshot

-- The pricing crate's implied_vol(price, f, k, t, r, right), and the text of a date.
variable (impliedVol : ℚ → ℚ → ℚ → ℚ → ℚ → Right → Option ℚ) (ymd : NaiveDate → String)

-- One turn of the loop of snapshot_chain. The `?` on the mid leaves the function.
def chainStep (forward : ℚ) (now : ℤ) (byExpiry : HashMap String (List ChainPoint)) (opt : OptionTick) :
    Option (HashMap String (List ChainPoint)) := do
  let mid ← opt.mid
  if mid ≤ 0 then return byExpiry
  match snapshotTte opt.expiry now with
  | none => return byExpiry
  | some tte =>
    match impliedVol mid forward opt.strike tte 0 opt.right with
    | some v =>
      if 1 / 1000 < v ∧ v < 5 then
        let key := ymd opt.expiry
        return byExpiry.set key ((byExpiry.get key).getD [] ++ [(opt.strike, v, tte)])
      else return byExpiry
    | none => return byExpiry

def snapshotChain (md : MarketDataState) (product : String) (now : ℤ) :
    Option (ℚ × HashMap String (List ChainPoint)) := do
  let forward ← md.underlyingPrice product
  if forward ≤ 0 then none
  let byExpiry ← (md.optionsForProduct product).foldlM (chainStep impliedVol ymd forward now) ∅
  if byExpiry.items.isEmpty then none else return (forward, byExpiry)

-- What an option has to give to the fit, looked at by itself: a two-sided uncrossed market,
-- time left, and an iv in range.
def usablePoint (forward : ℚ) (now : ℤ) (opt : OptionTick) : Option ChainPoint := do
  let mid ← opt.mid
  let tte ← snapshotTte opt.expiry now
  let v ← impliedVol mid forward opt.strike tte 0 opt.right
  if 1 / 1000 < v ∧ v < 5 then return (opt.strike, v, tte) else none

def pointsAt (result : Option (ℚ × HashMap String (List ChainPoint))) (expiry : String) : List ChainPoint :=
  (result.bind fun found => found.2.get expiry).getD []

-- Every expiry has the points of its usable options, and no others.
def EveryUsable (forward : ℚ) (md : MarketDataState) (product : String) (now : ℤ) : Prop :=
  ∀ expiry, pointsAt (snapshotChain impliedVol ymd md product now) expiry =
    ((md.optionsForProduct product).filter fun opt => ymd opt.expiry = expiry).filterMap
      (usablePoint impliedVol forward now)

end Snapshot

section Loop

variable {impliedVol : ℚ → ℚ → ℚ → ℚ → ℚ → Right → Option ℚ} {ymd : NaiveDate → String} {forward : ℚ} {now : ℤ}

theorem mid_positive {opt : OptionTick} {mid : ℚ} (quoted : opt.mid = some mid) : 0 < mid := by
  unfold OptionTick.mid at quoted
  split at quoted
  · rename_i sides
    cases quoted
    linarith [sides.1, sides.2.1]
  · cases quoted

theorem chainStep_none {byExpiry : HashMap String (List ChainPoint)} {opt : OptionTick} (dark : opt.mid = none) :
    chainStep impliedVol ymd forward now byExpiry opt = none := by
  simp [chainStep, dark]

def addPoint (byExpiry : HashMap String (List ChainPoint)) (entry : String × ChainPoint) :
    HashMap String (List ChainPoint) :=
  byExpiry.set entry.1 ((byExpiry.get entry.1).getD [] ++ [entry.2])

def keyedPoint (impliedVol : ℚ → ℚ → ℚ → ℚ → ℚ → Right → Option ℚ) (ymd : NaiveDate → String) (forward : ℚ) (now : ℤ)
    (opt : OptionTick) : Option (String × ChainPoint) :=
  (usablePoint impliedVol forward now opt).map (ymd opt.expiry, ·)

-- An option with a mid adds its point if it has one, and nothing else.
theorem chainStep_quoted (byExpiry : HashMap String (List ChainPoint)) {opt : OptionTick} (quoted : opt.mid.isSome) :
    chainStep impliedVol ymd forward now byExpiry opt =
      some (((keyedPoint impliedVol ymd forward now opt).map (addPoint byExpiry)).getD byExpiry) := by
  obtain ⟨mid, found⟩ := Option.isSome_iff_exists.mp quoted
  have positive := mid_positive found
  unfold chainStep keyedPoint usablePoint
  simp only [found, Option.bind_eq_bind, Option.bind_some, if_neg (not_le.mpr positive)]
  cases snapshotTte opt.expiry now with
  | none => rfl
  | some tte =>
    simp only [Option.bind_some]
    cases impliedVol mid forward opt.strike tte 0 opt.right with
    | none => rfl
    | some v =>
      simp only [Option.bind_some]
      split
      · rfl
      · rfl

theorem foldlM_quoted {opts : List OptionTick} (quoted : ∀ opt ∈ opts, opt.mid.isSome)
    (byExpiry : HashMap String (List ChainPoint)) :
    opts.foldlM (chainStep impliedVol ymd forward now) byExpiry =
      some ((opts.filterMap (keyedPoint impliedVol ymd forward now)).foldl addPoint byExpiry) := by
  induction opts generalizing byExpiry with
  | nil => rfl
  | cons opt rest next =>
    rw [List.foldlM_cons, chainStep_quoted byExpiry (quoted opt List.mem_cons_self), Option.bind_eq_bind,
      Option.bind_some, next fun other member => quoted other (List.mem_cons_of_mem _ member)]
    cases point : keyedPoint impliedVol ymd forward now opt with
    | none => rw [List.filterMap_cons_none point, Option.map_none, Option.getD_none]
    | some entry => rw [List.filterMap_cons_some point, Option.map_some, Option.getD_some, List.foldl_cons]

theorem foldlM_dark {opts : List OptionTick} (dark : ∃ opt ∈ opts, opt.mid = none)
    (byExpiry : HashMap String (List ChainPoint)) :
    opts.foldlM (chainStep impliedVol ymd forward now) byExpiry = none := by
  induction opts generalizing byExpiry with
  | nil =>
    obtain ⟨opt, member, -⟩ := dark
    cases member
  | cons opt rest next =>
    rw [List.foldlM_cons, Option.bind_eq_bind]
    cases quoted : opt.mid with
    | none => rw [chainStep_none quoted, Option.bind_none]
    | some mid =>
      rw [chainStep_quoted byExpiry (by rw [quoted]; rfl), Option.bind_some]
      apply next
      obtain ⟨other, member, missing⟩ := dark
      rcases List.mem_cons.mp member with rfl | later
      · rw [quoted] at missing
        cases missing
      · exact ⟨other, later, missing⟩

theorem addPoint_group (entries : List (String × ChainPoint)) (expiry : String) :
    ((entries.foldl addPoint ∅).get expiry).getD [] = (entries.filter (·.1 = expiry)).map (·.2) := by
  have grouped := HashMap.get_group Prod.fst (fun points entry => points ++ [entry.2]) [] entries expiry
  have append : ∀ (kept : List (String × ChainPoint)) (points : List ChainPoint),
      kept.foldl (fun points entry => points ++ [entry.2]) points = points ++ kept.map (·.2) := by
    intro kept
    induction kept with
    | nil => simp
    | cons entry rest next =>
      intro points
      rw [List.foldl_cons, next]
      simp
  change ((HashMap.group Prod.fst (fun points entry => points ++ [entry.2]) [] entries).get expiry).getD [] = _
  rw [grouped]
  split
  · rw [Option.getD_some, append, List.nil_append]
  · rename_i absent
    have nothing : entries.filter (·.1 = expiry) = [] := by
      refine List.filter_eq_nil_iff.mpr fun entry member => ?_
      simp only [decide_eq_true_eq]
      exact fun own => absent (List.mem_map.mpr ⟨entry, member, own⟩)
    rw [nothing]
    rfl

theorem keyed_filter (opts : List OptionTick) (expiry : String) :
    ((opts.filterMap (keyedPoint impliedVol ymd forward now)).filter (·.1 = expiry)).map (·.2) =
      (opts.filter fun opt => ymd opt.expiry = expiry).filterMap (usablePoint impliedVol forward now) := by
  induction opts with
  | nil => rfl
  | cons opt rest next =>
    have keyed : keyedPoint impliedVol ymd forward now opt =
        (usablePoint impliedVol forward now opt).map (ymd opt.expiry, ·) := rfl
    cases point : usablePoint impliedVol forward now opt with
    | none =>
      rw [point, Option.map_none] at keyed
      rw [List.filterMap_cons_none keyed, List.filter_cons, next]
      split
      · rw [List.filterMap_cons_none point]
      · rfl
    | some found =>
      rw [point, Option.map_some] at keyed
      rw [List.filterMap_cons_some keyed, List.filter_cons, List.filter_cons]
      by_cases own : ymd opt.expiry = expiry
      · rw [if_pos (by simpa using own), if_pos (by simpa using own), List.map_cons, next,
          List.filterMap_cons_some point]
      · rw [if_neg (by simpa using own), if_neg (by simpa using own), next]

variable {md : MarketDataState} {product : String}

theorem priced_positive (priced : md.underlyingPrice product = some forward) : 0 < forward := by
  unfold MarketDataState.underlyingPrice at priced
  simpa using (Option.filter_eq_some_iff.mp priced).2

theorem chain_quoted (priced : md.underlyingPrice product = some forward)
    (quoted : ∀ opt ∈ md.optionsForProduct product, opt.mid.isSome) (expiry : String) :
    pointsAt (snapshotChain impliedVol ymd md product now) expiry =
      ((md.optionsForProduct product).filter fun opt => ymd opt.expiry = expiry).filterMap
        (usablePoint impliedVol forward now) := by
  have positive := priced_positive priced
  rw [← keyed_filter, ← addPoint_group]
  unfold snapshotChain
  simp only [priced, Option.bind_eq_bind, Option.bind_some, if_neg (not_le.mpr positive), foldlM_quoted quoted]
  split
  · rename_i empty
    generalize List.foldl addPoint ∅ _ = byExpiry at empty
    have missing : byExpiry.get expiry = none := by
      cases found : byExpiry.get expiry with
      | none => rfl
      | some points =>
        have member := HashMap.mem_items.mpr found
        rw [List.isEmpty_iff.mp empty] at member
        cases member
    rw [missing]
    rfl
  · rfl

theorem chain_dark (dark : ∃ opt ∈ md.optionsForProduct product, opt.mid = none) :
    snapshotChain impliedVol ymd md product now = none := by
  unfold snapshotChain
  cases md.underlyingPrice product with
  | none => rfl
  | some forward =>
    simp only [Option.bind_eq_bind, Option.bind_some, foldlM_dark dark]
    split
    · rfl
    · rfl

end Loop

-- Two options of one expiry: the call is quoted on both sides, the put on one.
def halfQuoted : MarketDataState :=
  let md := ((MarketDataState.new.setUnderlying "HG" 6).registerOption "HG" 6 .epoch .call 900).registerOption
    "HG" 6 .epoch .put 901
  ((md.updateBid 900 (59 / 100) 5 1).updateAsk 900 (604 / 1000) 5 2).updateBid 901 (59 / 100) 5 3

-- A year ahead of expiry, where the mid of the call is that of an iv of a quarter.
def yearAhead : ℤ := atHour .epoch 20 - 31557600 * 10 ^ 9

theorem call_lost :
    ¬EveryUsable (fun _ _ _ _ _ _ => some (1 / 4)) (fun _ => "19700101") 6 halfQuoted "HG" yearAhead := by
  intro every
  have points := every "19700101"
  revert points
  decide +kernel

theorem every_usable_iff (impliedVol : ℚ → ℚ → ℚ → ℚ → ℚ → Right → Option ℚ) (ymd : NaiveDate → String)
    {md : MarketDataState} {product : String} {forward : ℚ} (priced : md.underlyingPrice product = some forward)
    (now : ℤ) :
    EveryUsable impliedVol ymd forward md product now ↔
      (∀ opt ∈ md.optionsForProduct product, opt.mid.isSome) ∨
      ∀ opt ∈ md.optionsForProduct product, usablePoint impliedVol forward now opt = none := by
  constructor
  · intro every
    by_cases quoted : ∀ opt ∈ md.optionsForProduct product, opt.mid.isSome
    · exact .inl quoted
    · right
      push Not at quoted
      obtain ⟨dark, listed, missing⟩ := quoted
      have nothing : snapshotChain impliedVol ymd md product now = none :=
        chain_dark ⟨dark, listed, by simpa using missing⟩
      intro opt member
      have points := every (ymd opt.expiry)
      rw [nothing] at points
      have empty := points.symm
      exact List.filterMap_eq_nil_iff.mp empty opt (List.mem_filter.mpr ⟨member, by simp⟩)
  · rintro (quoted | useless) expiry
    · exact chain_quoted priced quoted expiry
    · by_cases quoted : ∀ opt ∈ md.optionsForProduct product, opt.mid.isSome
      · exact chain_quoted priced quoted expiry
      · push Not at quoted
        obtain ⟨dark, listed, missing⟩ := quoted
        rw [chain_dark ⟨dark, listed, by simpa using missing⟩]
        symm
        refine List.filterMap_eq_nil_iff.mpr fun opt member => ?_
        exact useless opt (List.mem_filter.mp member).1

theorem every_usable_iff_halfQuoted :
    ¬EveryUsable (fun _ _ _ _ _ _ => some (1 / 4)) (fun _ => "19700101") 6 halfQuoted "HG" yearAhead ∧
    EveryUsable (fun _ _ _ _ _ _ => some (1 / 4)) (fun _ => "19700101") 6 (halfQuoted.updateAsk 901 (604 / 1000) 5 4)
      "HG" yearAhead := by
  constructor
  · rw [every_usable_iff _ _ (by decide +kernel)]
    decide +kernel
  · rw [every_usable_iff _ _ (by decide +kernel)]
    decide +kernel

end Corsair.Daemon
