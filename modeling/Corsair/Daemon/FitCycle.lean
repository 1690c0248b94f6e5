import Corsair.Book.Portfolio
import Corsair.Calibrate.Sabr
import Corsair.Daemon.Chain
import Corsair.ImpliedVol

-- A cycle of the vol-surface task, with the pricing crate's own functions.
namespace Corsair.Daemon.Fitting

open Black (impliedVol black76Price)
open BrokerApi MarketData Expiry
open Calibrate (SabrFit Halt calibrateSabr)
open Sabr (realFunctions)

-- strike, iv and time to expiry
abbrev FitPoint := ℝ × ℝ × ℝ

def rightStr : Right → String
  | .call => "C"
  | .put => "P"

section Model

variable (ymd : NaiveDate → String) (forward : ℚ) (now : ℤ)

-- One turn of the loop of snapshot_chain. Without a mid the function is left.
noncomputable def snapshotStep (byExpiry : HashMap String (List FitPoint)) (opt : OptionTick) :
    Except Brent.Fault (Option (HashMap String (List FitPoint))) :=
  match opt.mid with
  | none => .ok none
  | some mid =>
    if mid ≤ 0 then .ok (some byExpiry)
    else
      match snapshotTte opt.expiry now with
      | none => .ok (some byExpiry)
      | some tte => do
        match ← impliedVol realFunctions mid forward opt.strike tte 0 (rightStr opt.right) with
        | none => return some byExpiry
        | some v =>
          if 1/1000 < v ∧ v < 5 then
            let key := ymd opt.expiry
            return some (byExpiry.set key ((byExpiry.get key).getD [] ++ [((opt.strike : ℝ), v, (tte : ℝ))]))
          else return some byExpiry

noncomputable def snapshotLoop (byExpiry : HashMap String (List FitPoint)) :
    List OptionTick → Except Brent.Fault (Option (HashMap String (List FitPoint)))
  | [] => .ok (some byExpiry)
  | opt :: rest => do
    match ← snapshotStep ymd forward now byExpiry opt with
    | none => return none
    | some byExpiry => snapshotLoop byExpiry rest

noncomputable def snapshotChain (md : MarketDataState) (product : String) :
    Except Brent.Fault (Option (ℚ × HashMap String (List FitPoint))) :=
  match md.underlyingPrice product with
  | none => .ok none
  | some forward =>
    if forward ≤ 0 then .ok none
    else do
      match ← snapshotLoop ymd forward now ∅ (md.optionsForProduct product) with
      | none => return none
      | some byExpiry => return if byExpiry.items.isEmpty then none else some (forward, byExpiry)

-- The two events of the task.
inductive SurfaceEvent where
  | failed (expiry reason : String) (nStrikes : ℕ)
  | surface (expiry : String) (forward : ℝ) (fit : SabrFit ℝ)

def SurfaceEvent.expiry : SurfaceEvent → String
  | .failed expiry _ _ => expiry
  | .surface expiry _ _ => expiry

noncomputable def fitExpiry (entry : String × List FitPoint) : Except Halt (List SurfaceEvent) :=
  let (expiry, points) := entry
  if points.length < 3 then .ok [.failed expiry "too_few_strikes" points.length]
  else
    match points.head? with
    | none => .ok []
    | some (_, _, tte) =>
      if 0 < tte then do
        let ks := points.map fun point => point.1
        let ivs := points.map fun point => point.2.1
        match ← calibrateSabr realFunctions forward tte ks ivs none (1/2) (1/20) with
        | some fit => return [.surface expiry forward fit]
        | none => return [.failed expiry "fit_rejected" points.length]
      else .ok []

noncomputable def fitExpiries : List (String × List FitPoint) → Except Halt (List SurfaceEvent)
  | [] => .ok []
  | entry :: rest => do
    let own ← fitExpiry forward entry
    let later ← fitExpiries rest
    return own ++ later

end Model

noncomputable def fitProduct (ymd : NaiveDate → String) (now : ℤ) (md : MarketDataState) (product : String) :
    Except (Brent.Fault ⊕ Halt) (List SurfaceEvent) := do
  match ← (snapshotChain ymd now md product).mapError .inl with
  | none => return []
  | some (forward, groups) => (fitExpiries forward groups.items).mapError .inr

-- The events of each product, in the order of the products.
noncomputable def fitAndPublish (ymd : NaiveDate → String) (now : ℤ) (md : MarketDataState) :
    List String → Except (Brent.Fault ⊕ Halt) (List (String × SurfaceEvent))
  | [] => .ok []
  | product :: rest => do
    let events ← fitProduct ymd now md product
    let later ← fitAndPublish ymd now md rest
    return events.map (product, ·) ++ later

section Points

-- What an option gives to the fit, looked at by itself.
noncomputable def fitPoint (forward : ℚ) (now : ℤ) (opt : OptionTick) : Option FitPoint := do
  let mid ← opt.mid
  let tte ← snapshotTte opt.expiry now
  let v ← (impliedVol realFunctions mid forward opt.strike tte 0 (rightStr opt.right)).toOption.join
  if 1/1000 < v ∧ v < 5 then return ((opt.strike : ℝ), v, (tte : ℝ)) else none

def addTo (byExpiry : HashMap String (List FitPoint)) (entry : String × FitPoint) : HashMap String (List FitPoint) :=
  byExpiry.set entry.1 ((byExpiry.get entry.1).getD [] ++ [entry.2])

-- The usable options of an expiry.
noncomputable def pointsOf (ymd : NaiveDate → String) (now : ℤ) (md : MarketDataState) (product : String) (forward : ℚ)
    (expiry : String) : List FitPoint :=
  ((md.optionsForProduct product).filter fun opt => ymd opt.expiry = expiry).filterMap (fitPoint forward now)

-- A product is fitted where it has a price and every one of its options a mid.
def Chained (md : MarketDataState) (product : String) (forward : ℚ) : Prop :=
  md.underlyingPrice product = some forward ∧ ∀ opt ∈ md.optionsForProduct product, opt.mid.isSome

variable {ymd : NaiveDate → String} {forward : ℚ} {now : ℤ}

theorem snapshotTte_positive {expiry : NaiveDate} {tte : ℚ} (left : snapshotTte expiry now = some tte) : 0 < tte := by
  unfold snapshotTte at left
  simp only [Option.ite_none_left_eq_some, not_le, Option.some.injEq] at left
  rw [← left.2]
  apply div_pos
  · exact_mod_cast left.1
  · norm_num

theorem fitPoint_tte {opt : OptionTick} {point : FitPoint} (made : fitPoint forward now opt = some point) :
    ∃ tte, snapshotTte opt.expiry now = some tte ∧ point.2.2 = tte := by
  unfold fitPoint at made
  simp only [Option.bind_eq_bind, Option.bind_eq_some_iff] at made
  obtain ⟨mid, _, tte, left, v, _, kept⟩ := made
  split at kept
  · cases kept
    exact ⟨tte, left, rfl⟩
  · cases kept

theorem snapshotStep_quoted (byExpiry : HashMap String (List FitPoint)) {opt : OptionTick} (quoted : opt.mid.isSome) :
    snapshotStep ymd forward now byExpiry opt =
      .ok (some ((((fitPoint forward now opt).map (ymd opt.expiry, ·)).map (addTo byExpiry)).getD byExpiry)) := by
  obtain ⟨mid, found⟩ := Option.isSome_iff_exists.mp quoted
  have positive := mid_positive found
  unfold snapshotStep fitPoint
  simp only [found, Option.bind_eq_bind, Option.bind_some, if_neg (not_le.mpr positive)]
  cases snapshotTte opt.expiry now with
  | none => rfl
  | some tte =>
    obtain ⟨vol, searched, _⟩ := Black.impliedVol_within realFunctions (mid : ℝ) forward opt.strike tte 0 (rightStr opt.right)
    simp only [searched, Option.bind_some]
    cases vol with
    | none => rfl
    | some v =>
      change (if _ then _ else _) = Except.ok (some (Option.getD (Option.map _ (Option.map _ (if _ then _ else _))) _))
      split
      · rfl
      · rfl

theorem snapshotStep_dark (byExpiry : HashMap String (List FitPoint)) {opt : OptionTick} (dark : opt.mid = none) :
    snapshotStep ymd forward now byExpiry opt = .ok none := by
  unfold snapshotStep
  rw [dark]

theorem snapshotLoop_quoted {opts : List OptionTick} (quoted : ∀ opt ∈ opts, opt.mid.isSome)
    (byExpiry : HashMap String (List FitPoint)) :
    snapshotLoop ymd forward now byExpiry opts =
      .ok (some ((opts.filterMap fun opt => (fitPoint forward now opt).map (ymd opt.expiry, ·)).foldl addTo byExpiry)) := by
  induction opts generalizing byExpiry with
  | nil => rfl
  | cons opt rest next =>
    have later := next fun other member => quoted other (List.mem_cons_of_mem _ member)
    unfold snapshotLoop
    rw [snapshotStep_quoted byExpiry (quoted opt List.mem_cons_self)]
    cases point : fitPoint forward now opt with
    | none =>
      rw [List.filterMap_cons_none (by rw [point]; rfl)]
      exact later byExpiry
    | some found =>
      rw [List.filterMap_cons_some (by rw [point]; rfl)]
      exact later _

theorem snapshotLoop_dark {opts : List OptionTick} (dark : ∃ opt ∈ opts, opt.mid = none)
    (byExpiry : HashMap String (List FitPoint)) : snapshotLoop ymd forward now byExpiry opts = .ok none := by
  induction opts generalizing byExpiry with
  | nil =>
    obtain ⟨opt, member, _⟩ := dark
    cases member
  | cons opt rest next =>
    unfold snapshotLoop
    cases quoted : opt.mid with
    | none =>
      rw [snapshotStep_dark byExpiry quoted]
      rfl
    | some mid =>
      rw [snapshotStep_quoted byExpiry (by rw [quoted]; rfl)]
      apply next
      obtain ⟨other, member, missing⟩ := dark
      rcases List.mem_cons.mp member with rfl | later
      · rw [quoted] at missing
        cases missing
      · exact ⟨other, later, missing⟩

variable {md : MarketDataState} {product : String}

-- What a chain holds is what its options give, and nothing where one has no mid.
variable (ymd now md product) in
theorem snapshotChain_spec : ∃ result, snapshotChain ymd now md product = .ok result ∧
    (∀ found ∈ result, Chained md product found.1 ∧ ∀ expiry, found.2.get expiry =
      if (pointsOf ymd now md product found.1 expiry).isEmpty then none
      else some (pointsOf ymd now md product found.1 expiry)) ∧
    (result = none → ∀ forward, Chained md product forward → ∀ expiry, pointsOf ymd now md product forward expiry = []) := by
  unfold snapshotChain
  cases priced : md.underlyingPrice product with
  | none =>
    refine ⟨none, rfl, by simp, ?_⟩
    intro _ forward chained
    cases priced.symm.trans chained.1
  | some forward =>
    have positive := priced_positive priced
    simp only [if_neg (not_le.mpr positive)]
    by_cases quoted : ∀ opt ∈ md.optionsForProduct product, opt.mid.isSome
    · have gathered := HashMap.get_gathered_map (fun opt => ymd opt.expiry) (fitPoint forward now) (md.optionsForProduct product)
      rw [snapshotLoop_quoted quoted]
      generalize loop : (List.filterMap _ (md.optionsForProduct product)).foldl addTo ∅ = byExpiry
      have points (expiry : String) : byExpiry.get expiry =
          if (pointsOf ymd now md product forward expiry).isEmpty then none
          else some (pointsOf ymd now md product forward expiry) := by
        rw [← loop]
        exact gathered expiry
      refine ⟨if byExpiry.items.isEmpty then none else some (forward, byExpiry), rfl, ?_, ?_⟩
      · intro found member
        split at member
        · cases member
        · cases member
          exact ⟨⟨priced, quoted⟩, points⟩
      · intro missing other chained expiry
        have same : forward = other := Option.some.inj (priced.symm.trans chained.1)
        subst same
        split at missing
        · rename_i empty
          by_contra some_points
          have held := points expiry
          rw [if_neg (by simpa using some_points)] at held
          have member := HashMap.mem_items.mpr held
          rw [List.isEmpty_iff.mp empty] at member
          cases member
        · cases missing
    · push Not at quoted
      obtain ⟨opt, listed, dark⟩ := quoted
      rw [snapshotLoop_dark ⟨opt, listed, by simpa using dark⟩]
      refine ⟨none, rfl, by simp, ?_⟩
      intro _ other chained
      have mid := chained.2 opt listed
      rw [Option.isSome_iff_ne_none] at mid
      exact absurd (by simpa using dark) mid

end Points

section Fits

variable {forward : ℚ} {expiry : String} {points : List FitPoint}

-- The answer of an expiry to its points.
def Fitted (forward : ℚ) (points : List FitPoint) : SurfaceEvent → Prop
  | .failed _ reason n => n = points.length ∧ reason = if n < 3 then "too_few_strikes" else "fit_rejected"
  | .surface _ level fit => level = forward ∧ 3 ≤ points.length ∧ ∃ first ∈ points.head?,
    Calibrate.Calibrated realFunctions (forward : ℝ) first.2.2 (points.map fun point => point.1) (points.map fun point => point.2.1)
      none (1/2) (1/20) fit

variable (forward expiry) in
theorem fitExpiry_sound (some_point : points ≠ []) (live : ∀ point ∈ points, 0 < point.2.2) :
    ∃ event, fitExpiry forward (expiry, points) = .ok [event] ∧ event.expiry = expiry ∧ Fitted forward points event := by
  unfold fitExpiry
  simp only
  by_cases few : points.length < 3
  · rw [if_pos few]
    exact ⟨_, rfl, rfl, rfl, (if_pos few).symm⟩
  · obtain ⟨first, rest, rfl⟩ := List.exists_cons_of_ne_nil some_point
    have positive := live first List.mem_cons_self
    obtain ⟨out, calibrated, sound⟩ := Calibrate.calibrateSabr_calibrated realFunctions (forward : ℝ) first.2.2
      ((first :: rest).map fun point => point.1) ((first :: rest).map fun point => point.2.1) none (1/2) (1/20)
    rw [if_neg few]
    simp only [List.head?_cons, if_pos positive]
    rw [calibrated]
    cases out with
    | none => exact ⟨_, rfl, rfl, rfl, (if_neg few).symm⟩
    | some fit => exact ⟨_, rfl, rfl, rfl, not_lt.mp few, first, rfl, sound fit rfl⟩

variable (forward) in
theorem fitExpiries_sound {entries : List (String × List FitPoint)}
    (live : ∀ entry ∈ entries, entry.2 ≠ [] ∧ ∀ point ∈ entry.2, 0 < point.2.2) :
    ∃ events, fitExpiries forward entries = .ok events ∧ events.map SurfaceEvent.expiry = entries.map Prod.fst ∧
      ∀ event ∈ events, ∃ entry ∈ entries, event.expiry = entry.1 ∧ Fitted forward entry.2 event := by
  induction entries with
  | nil => exact ⟨[], rfl, rfl, by simp⟩
  | cons entry rest next =>
    obtain ⟨expiry, points⟩ := entry
    obtain ⟨some_point, fine⟩ := live (expiry, points) List.mem_cons_self
    obtain ⟨event, own, named, fitted⟩ := fitExpiry_sound forward expiry some_point fine
    obtain ⟨events, others, names, sound⟩ := next fun other member => live other (List.mem_cons_of_mem _ member)
    refine ⟨event :: events, ?_, ?_, ?_⟩
    · unfold fitExpiries
      rw [own, others]
      rfl
    · rw [List.map_cons, List.map_cons, names, named]
    · intro other member
      rcases List.mem_cons.mp member with rfl | later
      · exact ⟨(expiry, points), List.mem_cons_self, named, fitted⟩
      · obtain ⟨held, listed, told⟩ := sound other later
        exact ⟨held, List.mem_cons_of_mem _ listed, told⟩

end Fits

section Cycle

variable {ymd : NaiveDate → String} {now : ℤ} {md : MarketDataState}

-- One event an expiry that has a usable option, for each product that is fitted.
structure Answered (ymd : NaiveDate → String) (now : ℤ) (md : MarketDataState) (products : List String)
    (outs : List (String × SurfaceEvent)) : Prop where
  once : products.Nodup → (outs.map fun out => (out.1, out.2.expiry)).Nodup
  every : ∀ product expiry, (product, expiry) ∈ outs.map (fun out => (out.1, out.2.expiry)) ↔
    product ∈ products ∧ ∃ forward, Chained md product forward ∧ pointsOf ymd now md product forward expiry ≠ []
  fitted : ∀ out ∈ outs, ∃ forward, Chained md out.1 forward ∧
    Fitted forward (pointsOf ymd now md out.1 forward out.2.expiry) out.2

variable (ymd now md) in
theorem product_answered (product : String) : ∃ events, fitProduct ymd now md product = .ok events ∧
    (events.map SurfaceEvent.expiry).Nodup ∧
    (∀ expiry, expiry ∈ events.map SurfaceEvent.expiry ↔
      ∃ forward, Chained md product forward ∧ pointsOf ymd now md product forward expiry ≠ []) ∧
    ∀ event ∈ events, ∃ forward, Chained md product forward ∧
      Fitted forward (pointsOf ymd now md product forward event.expiry) event := by
  obtain ⟨result, chain, sound, silent⟩ := snapshotChain_spec ymd now md product
  unfold fitProduct
  rw [chain]
  cases result with
  | none =>
    refine ⟨[], rfl, List.nodup_nil, ?_, by simp⟩
    intro expiry
    constructor
    · simp
    · rintro ⟨forward, chained, some_point⟩
      exact absurd (silent rfl forward chained expiry) some_point
  | some found =>
    obtain ⟨forward, groups⟩ := found
    obtain ⟨chained, points⟩ := sound (forward, groups) rfl
    have held {expiry : String} {own : List FitPoint} : (expiry, own) ∈ groups.items ↔
        own = pointsOf ymd now md product forward expiry ∧ own ≠ [] := by
      rw [HashMap.mem_items, points]
      split
      · rename_i empty
        have nothing := List.isEmpty_iff.mp empty
        constructor
        · simp
        · rintro ⟨same, some_point⟩
          exact absurd (same.trans nothing) some_point
      · rename_i filled
        constructor
        · intro same
          cases same
          exact ⟨rfl, by simpa using filled⟩
        · rintro ⟨same, _⟩
          rw [same]
    have live : ∀ entry ∈ groups.items, entry.2 ≠ [] ∧ ∀ point ∈ entry.2, 0 < point.2.2 := by
      rintro ⟨expiry, own⟩ member
      obtain ⟨rfl, some_point⟩ := held.mp member
      refine ⟨some_point, ?_⟩
      intro point listed
      obtain ⟨opt, _, made⟩ := List.mem_filterMap.mp listed
      obtain ⟨tte, left, same⟩ := fitPoint_tte made
      rw [same]
      exact Rat.cast_pos.mpr (snapshotTte_positive left)
    obtain ⟨events, fitted, names, answered⟩ := fitExpiries_sound forward live
    refine ⟨events, ?_, ?_, ?_, ?_⟩
    · change (fitExpiries forward groups.items).mapError Sum.inr = _
      rw [fitted]
      rfl
    · rw [names]
      exact HashMap.nodup_keys groups
    · intro expiry
      rw [names, List.mem_map]
      constructor
      · rintro ⟨⟨name, own⟩, member, rfl⟩
        obtain ⟨rfl, some_point⟩ := held.mp member
        exact ⟨forward, chained, some_point⟩
      · rintro ⟨other, also, some_point⟩
        cases chained.1.symm.trans also.1
        exact ⟨(expiry, _), held.mpr ⟨rfl, some_point⟩, rfl⟩
    · intro event member
      obtain ⟨⟨name, own⟩, listed, same, told⟩ := answered event member
      obtain ⟨rfl, _⟩ := held.mp listed
      refine ⟨forward, chained, ?_⟩
      rw [same]
      exact told

variable (ymd now md) in
theorem cycle_answered (products : List String) :
    ∃ outs, fitAndPublish ymd now md products = .ok outs ∧ Answered ymd now md products outs := by
  induction products with
  | nil => exact ⟨[], rfl, ⟨fun _ => List.nodup_nil, by simp, by simp⟩⟩
  | cons product rest next =>
    obtain ⟨events, own, distinct, every, fitted⟩ := product_answered ymd now md product
    obtain ⟨later, others, answered⟩ := next
    refine ⟨events.map (product, ·) ++ later, ?_, ?_⟩
    · unfold fitAndPublish
      rw [own, others]
      rfl
    · have keys : (events.map fun event => (product, event)).map (fun out => (out.1, out.2.expiry)) =
          (events.map SurfaceEvent.expiry).map (product, ·) := by
        rw [List.map_map, List.map_map]
        rfl
      constructor
      · intro unique
        obtain ⟨fresh, rest_unique⟩ := List.nodup_cons.mp unique
        rw [List.map_append, keys]
        apply List.Nodup.append
        · exact distinct.map fun a b same => (Prod.mk.inj same).2
        · exact answered.once rest_unique
        · intro key mine theirs
          obtain ⟨expiry, _, rfl⟩ := List.mem_map.mp mine
          exact fresh ((answered.every product expiry).mp theirs).1
      · intro name expiry
        rw [List.map_append, keys, List.mem_append, answered.every, List.mem_map, List.mem_cons]
        constructor
        · rintro (⟨found, member, same⟩ | ⟨listed, given⟩)
          · cases same
            exact ⟨.inl rfl, (every expiry).mp member⟩
          · exact ⟨.inr listed, given⟩
        · rintro ⟨rfl | listed, given⟩
          · exact .inl ⟨expiry, (every expiry).mpr given, rfl⟩
          · exact .inr ⟨listed, given⟩
      · intro out member
        rcases List.mem_append.mp member with mine | theirs
        · obtain ⟨event, listed, rfl⟩ := List.mem_map.mp mine
          exact fitted event listed
        · exact answered.fitted out theirs

end Cycle

section Repriced

open StandardNormal (pdf)

-- A residual is within the root of the sum of them all.
theorem residual_bound {m : ℕ} (r : Fin m → ℝ) (i : Fin m) : |r i| ≤ √m * √(Calibrate.meanSquare r) := by
  have count : (0 : ℝ) < m := Nat.cast_pos.mpr i.pos
  rw [← Real.sqrt_mul count.le, ← Real.sqrt_mul_self_eq_abs]
  apply Real.sqrt_le_sqrt
  unfold Calibrate.meanSquare
  rw [mul_div_cancel₀ _ count.ne']
  exact Finset.single_le_sum (fun j _ => mul_self_nonneg (r j)) (Finset.mem_univ i)

-- The trader's theo of an option on a surface, at the time of the fit.
noncomputable def theo (level tte : ℝ) (fit : SabrFit ℝ) (opt : OptionTick) : ℝ :=
  black76Price realFunctions level opt.strike tte
    (Calibrate.sabrImpliedVol realFunctions level opt.strike tte fit.alpha fit.beta fit.rho fit.nu) 0 (rightStr opt.right)

-- Each quote that a surface was fitted to is priced by it to within the fit's error, unless
-- the search of its own iv used up its hundred iterations.
structure Reprices (now : ℤ) (forward tte : ℚ) (fit : SabrFit ℝ) (opt : OptionTick) : Prop where
  close : ∀ mid run, opt.mid = some mid → (fitPoint forward now opt).isSome →
    Black.searched (mid : ℝ) forward opt.strike tte 0 (rightStr opt.right) = .ok run →
    run.exhausted = true ∧ run.starts.length = 100 ∨
    |theo forward tte fit opt - mid| ≤ forward * √tte * pdf 0 * (√fit.nPoints * fit.rmse + 1/10^6)

theorem calibrated_residual {f t beta maxRmse : ℝ} {points : List FitPoint} {fit : SabrFit ℝ} {point : FitPoint}
    (calibrated : Calibrate.Calibrated realFunctions f t (points.map fun point => point.1)
      (points.map fun point => point.2.1) none beta maxRmse fit) (member : point ∈ points) :
    |Calibrate.sabrImpliedVol realFunctions f point.1 t fit.alpha fit.beta fit.rho fit.nu - point.2.1| ≤
      √fit.nPoints * fit.rmse := by
  obtain ⟨i, here⟩ := List.mem_iff_get.mp member
  let j : Fin (points.map fun point => point.1).length := Fin.cast (List.length_map _).symm i
  have own : Calibrate.residual realFunctions f t (points.map fun point => point.1) (points.map fun point => point.2.1)
      none beta fit.params j =
        Calibrate.sabrImpliedVol realFunctions f point.1 t fit.alpha fit.beta fit.rho fit.nu - point.2.1 := by
    have strike : (points.map fun point => point.1).get j = point.1 := by
      simp [j, ← here]
    have iv : (points.map fun point => point.2.1).getD j 0 = point.2.1 := by
      simp [j, ← here]
    unfold Calibrate.residual
    rw [strike, iv, calibrated.own.1]
    exact mul_one _
  have rooted (x : ℝ) : realFunctions.sqrt x = √x := rfl
  rw [← own, calibrated.own.2, calibrated.rmse, rooted]
  exact residual_bound _ j

theorem fitted_reprices {now : ℤ} {forward tte : ℚ} {points : List FitPoint} {fit : SabrFit ℝ} {opt : OptionTick}
    (priced : 0 < forward) (left : snapshotTte opt.expiry now = some tte)
    (calibrated : Calibrate.Calibrated realFunctions (forward : ℝ) tte (points.map fun point => point.1)
      (points.map fun point => point.2.1) none (1/2) (1/20) fit)
    (member : ∀ point, fitPoint forward now opt = some point → point ∈ points) : Reprices now forward tte fit opt := by
  constructor
  intro mid run quoted usable searched
  obtain ⟨point, made⟩ := Option.isSome_iff_exists.mp usable
  have residual := calibrated_residual calibrated (member point made)
  obtain ⟨other, ran, implied⟩ := Black.searched_implied (mid : ℝ) forward opt.strike tte 0 (rightStr opt.right)
  cases searched.symm.trans ran
  have found : Black.impliedVol realFunctions (mid : ℝ) forward opt.strike tte 0 (rightStr opt.right) = .ok run.result := by
    rw [Black.impliedVol_search, ran]
    rfl
  refine implied.inverts.imp_right ?_
  intro inverts
  unfold fitPoint at made
  simp only [quoted, left, found, Option.bind_eq_bind, Option.bind_some, Except.toOption, Option.join_some] at made
  obtain ⟨v, result, kept⟩ := Option.bind_eq_some_iff.mp made
  split at kept
  · cases kept
    obtain ⟨sigma, _, exact_price, near, _⟩ := inverts v result
    obtain ⟨time, _, strike, _⟩ := implied.found.mp (by rw [result]; rfl)
    have live : Black.Live (forward : ℝ) opt.strike tte := ⟨time, Rat.cast_pos.mpr priced, strike⟩
    have steep := Black.price_lipschitz (rightStr opt.right) live
      (Calibrate.sabrImpliedVol realFunctions forward opt.strike tte fit.alpha fit.beta fit.rho fit.nu) sigma
    rw [exact_price] at steep
    refine steep.trans (mul_le_mul_of_nonneg_left ?_ ?_)
    · refine (abs_sub_le _ v sigma).trans ?_
      linarith
    · have level := live.2.1
      have density := StandardNormal.pdf_pos 0
      positivity
  · cases kept

variable {ymd : NaiveDate → String} {now : ℤ} {md : MarketDataState} {product expiry : String}

theorem mem_pointsOf {forward : ℚ} {point : FitPoint} : point ∈ pointsOf ymd now md product forward expiry ↔
    ∃ opt ∈ md.optionsForProduct product, ymd opt.expiry = expiry ∧ fitPoint forward now opt = some point := by
  unfold pointsOf
  rw [List.mem_filterMap]
  simp only [List.mem_filter, decide_eq_true_eq, and_assoc]

-- A published surface, against the options of its expiry.
def SurfaceReprices (ymd : NaiveDate → String) (now : ℤ) (md : MarketDataState) (product expiry : String) (level : ℝ)
    (fit : SabrFit ℝ) : Prop :=
  ∃ forward tte : ℚ, Chained md product forward ∧ level = forward ∧
    (∃ opt ∈ md.optionsForProduct product, ymd opt.expiry = expiry ∧ snapshotTte opt.expiry now = some tte ∧
      (fitPoint forward now opt).isSome) ∧
    ∀ opt ∈ md.optionsForProduct product, ymd opt.expiry = expiry → snapshotTte opt.expiry now = some tte →
      Reprices now forward tte fit opt

theorem surface_reprices {forward : ℚ} (chained : Chained md product forward) {level : ℝ} {fit : SabrFit ℝ}
    (fitted : Fitted forward (pointsOf ymd now md product forward expiry) (.surface expiry level fit)) :
    SurfaceReprices ymd now md product expiry level fit := by
  obtain ⟨same, _, first, head, calibrated⟩ := fitted
  obtain ⟨opt, listed, named, made⟩ := mem_pointsOf.mp (List.mem_of_mem_head? head)
  obtain ⟨tte, left, own⟩ := fitPoint_tte made
  rw [own] at calibrated
  refine ⟨forward, tte, chained, same, ⟨opt, listed, named, left, by rw [made]; rfl⟩, ?_⟩
  intro other held also time
  apply fitted_reprices (priced_positive chained.1) time calibrated
  intro point usable
  exact mem_pointsOf.mpr ⟨other, held, also, usable⟩

end Repriced

-- A cycle over any market and any products: one answer an expiry, and the surfaces that
-- are published price the quotes they were fitted to.
theorem fit_cycle_reprices (ymd : NaiveDate → String) (now : ℤ) (md : MarketDataState) (registry : Book.ProductRegistry) :
    ∃ outs, fitAndPublish ymd now md registry.products = .ok outs ∧ Answered ymd now md registry.products outs ∧
      (outs.map fun out => (out.1, out.2.expiry)).Nodup ∧
      ∀ product expiry level fit, (product, .surface expiry level fit) ∈ outs →
        SurfaceReprices ymd now md product expiry level fit := by
  obtain ⟨outs, published, answered⟩ := cycle_answered ymd now md registry.products
  refine ⟨outs, published, answered, answered.once registry.nodupKeys, ?_⟩
  intro product expiry level fit member
  obtain ⟨forward, chained, fitted⟩ := answered.fitted _ member
  exact surface_reprices chained fitted

end Corsair.Daemon.Fitting
