import Corsair.Lib.Machine
import Corsair.Sabr.Surface
import Mathlib.Algebra.Order.Group.MinMax
import Mathlib.Analysis.SpecialFunctions.Pow.Real
import Mathlib.Probability.CDF
import Mathlib.Probability.Distributions.Gaussian.Real

namespace Corsair.Sabr

open Black (Elementary)

variable {𝕜 Anchor : Type*} [Field 𝕜] [LinearOrder 𝕜] {model : VolModel}

section Apply

variable (tsi : Tsi 𝕜 Anchor) (clock : Clock 𝕜) (m : MultiExpirySABR model 𝕜) (surf : SABRSurface model 𝕜)
  (exp : String) (res : FitResult model 𝕜)

-- The fit that passes the gates for a side, if there is one.
def taken (side : Side) : Option (Fit 𝕜 model) := m.accepted tsi clock (surf.sideParams side) exp res side

def SideParams.take (sp : SideParams 𝕜) (result : Option (Fit 𝕜 model)) : SideParams 𝕜 := result.elim sp sp.commit

-- The loop after some of the sides: the forward is the fit's already, whatever the gates say.
structure Partly (done : List Side) (s : MultiExpirySABR.Applying model 𝕜) : Prop where
  forward : s.surf.forward = res.forward
  beta : s.surf.beta = surf.beta
  expiry : s.surf.frontMonthExpiry = surf.frontMonthExpiry
  ttl : s.surf.theoCacheTtlSec = surf.theoCacheTtlSec
  cache : s.surf.theoCache = surf.theoCache
  did : ∀ side ∈ done, s.surf.sideParams side = (surf.sideParams side).take (taken tsi clock m surf exp res side)
  rest : ∀ side, side ∉ done → s.surf.sideParams side = surf.sideParams side
  updated : s.anyUpdated = true ↔ ∃ side ∈ done, taken tsi clock m surf exp res side ≠ none
  published : ∀ out ∈ s.published, out.forward = res.forward ∧ taken tsi clock m surf exp res out.side = some out.params

variable {tsi clock m surf exp res}

-- A side takes its first fit once the fit itself passes the quality gate.
theorem first_taken {side : Side} {fit : Fit 𝕜 model} (given : res.side side = some fit)
    (passed : m.qualityGate tsi clock exp res side fit = some (fit, false))
    (first : (surf.sideParams side).prior model = none) : taken tsi clock m surf exp res side = some fit := by
  unfold taken MultiExpirySABR.accepted
  rw [given, Option.bind_some, passed, first]
  rfl

theorem applySide_partly {done : List Side} {s : MultiExpirySABR.Applying model 𝕜}
    (given : Partly tsi clock m surf exp res done s) {side : Side} (fresh : side ∉ done) :
    Partly tsi clock m surf exp res (done ++ [side]) (m.applySide tsi clock exp res s side) := by
  have own : m.accepted tsi clock (s.surf.sideParams side) exp res side = taken tsi clock m surf exp res side := by
    rw [given.rest side fresh]
    rfl
  unfold MultiExpirySABR.applySide
  simp only [own]
  cases found : taken tsi clock m surf exp res side with
  | none =>
    constructor
    · exact given.forward
    · exact given.beta
    · exact given.expiry
    · exact given.ttl
    · exact given.cache
    · intro other member
      rcases List.mem_append.mp member with before | last
      · exact given.did other before
      · cases List.mem_singleton.mp last
        rw [found]
        exact given.rest side fresh
    · intro other outside
      exact given.rest other fun before => outside (List.mem_append_left _ before)
    · rw [given.updated]
      simp [or_and_right, exists_or, found]
    · exact given.published
  | some result =>
    dsimp only
    constructor
    · exact given.forward
    · exact given.beta
    · exact given.expiry
    · exact given.ttl
    · exact given.cache
    · intro other member
      change Function.update s.surf.sideParams side ((s.surf.sideParams side).commit result) other = _
      by_cases same : other = side
      · subst same
        rw [Function.update_self, found, given.rest other fresh]
        rfl
      · rw [Function.update_of_ne same]
        rcases List.mem_append.mp member with before | last
        · exact given.did other before
        · exact absurd (List.mem_singleton.mp last) same
    · intro other outside
      obtain ⟨before, last⟩ := not_or.mp (mt List.mem_append.mpr outside)
      change Function.update s.surf.sideParams side ((s.surf.sideParams side).commit result) other = _
      rw [Function.update_of_ne fun same => last (List.mem_singleton.mpr same)]
      exact given.rest other before
    · simp only [true_iff]
      exact ⟨side, List.mem_append_right _ List.mem_cons_self, by simp [found]⟩
    · intro out member
      split at member
      · rcases List.mem_append.mp member with before | last
        · exact given.published out before
        · cases List.mem_singleton.mp last
          exact ⟨rfl, found⟩
      · exact given.published out member

-- What a fit makes of a surface.
structure Applied (tsi : Tsi 𝕜 Anchor) (clock : Clock 𝕜) (m : MultiExpirySABR model 𝕜) (surf : SABRSurface model 𝕜)
    (exp : String) (res : FitResult model 𝕜) (s : MultiExpirySABR.Applying model 𝕜) : Prop where
  forward : s.surf.forward = res.forward
  beta : s.surf.beta = surf.beta
  expiry : s.surf.frontMonthExpiry = surf.frontMonthExpiry
  ttl : s.surf.theoCacheTtlSec = surf.theoCacheTtlSec
  sides : ∀ side, s.surf.sideParams side = (surf.sideParams side).take (taken tsi clock m surf exp res side)
  cache : (∀ side, taken tsi clock m surf exp res side = none) → s.surf.theoCache = surf.theoCache
  published : ∀ out ∈ s.published, out.forward = res.forward ∧ taken tsi clock m surf exp res out.side = some out.params

theorem applySides_partly :
    Partly tsi clock m surf exp res [.C, .P] (m.applySides tsi clock surf exp res) := by
  let moved : SABRSurface model 𝕜 := { surf with forward := res.forward, spotAtFit := res.spotAtFit.getD res.forward }
  have start : Partly tsi clock m surf exp res [] ⟨moved, false, []⟩ := by
    constructor <;> simp [moved]
  have call := @applySide_partly _ _ _ _ _ _ _ _ _ _ _ _ _ start Side.C (by simp)
  exact @applySide_partly _ _ _ _ _ _ _ _ _ _ _ _ _ call Side.P (by simp)

variable (tsi clock m surf exp res)

theorem applyFitToSurface_applied : Applied tsi clock m surf exp res (m.applyFitToSurface tsi clock surf exp res) := by
  have both : Partly tsi clock m surf exp res [.C, .P] (m.applySides tsi clock surf exp res) := applySides_partly
  have all (side : Side) : side ∈ [Side.C, Side.P] := by
    cases side <;> simp
  unfold MultiExpirySABR.applyFitToSurface
  simp only
  split
  · rename_i updated
    constructor
    · exact both.forward
    · exact both.beta
    · exact both.expiry
    · exact both.ttl
    · exact fun side => both.did side (all side)
    · intro rejected
      obtain ⟨side, _, found⟩ := both.updated.mp updated
      exact absurd (rejected side) found
    · exact both.published
  · constructor
    · exact both.forward
    · exact both.beta
    · exact both.expiry
    · exact both.ttl
    · exact fun side => both.did side (all side)
    · exact fun _ => both.cache
    · exact both.published

end Apply

-- Both sides missing from a result, or rejected by the gates.
def Rejected (tsi : Tsi 𝕜 Anchor) (clock : Clock 𝕜) (m : MultiExpirySABR model 𝕜) (surf : SABRSurface model 𝕜)
    (exp : String) (res : FitResult model 𝕜) : Prop := ∀ side, taken tsi clock m surf exp res side = none

theorem missing_rejected {tsi : Tsi 𝕜 Anchor} {clock : Clock 𝕜} {m : MultiExpirySABR model 𝕜}
    {surf : SABRSurface model 𝕜} {exp : String} {res : FitResult model 𝕜} (missing : ∀ side, res.side side = none) :
    Rejected tsi clock m surf exp res := by
  intro side
  unfold taken MultiExpirySABR.accepted
  rw [missing side]
  rfl

section Prices

variable (fn : Elementary 𝕜)

-- The same answers at every time, strike and right.
def SamePrices (before after : SABRSurface model 𝕜) : Prop := ∀ clock strike putCall,
  after.getVol fn clock strike = before.getVol fn clock strike ∧
    (after.getTheo fn clock strike putCall).map Prod.fst = (before.getTheo fn clock strike putCall).map Prod.fst

-- What a lookup reads of a surface.
structure SameReads (before after : SABRSurface model 𝕜) : Prop where
  beta : after.beta = before.beta
  expiry : after.frontMonthExpiry = before.frontMonthExpiry
  ttl : after.theoCacheTtlSec = before.theoCacheTtlSec
  sides : after.sideParams = before.sideParams
  cache : after.theoCache = before.theoCache

variable {fn} {before after : SABRSurface model 𝕜}

theorem getTheo_fst (surf : SABRSurface model 𝕜) (clock : Clock 𝕜) (strike : 𝕜) (putCall : String) :
    (surf.getTheo fn clock strike putCall).map Prod.fst =
      match surf.cached clock strike putCall with
      | some theo => .ok theo
      | none =>
        if surf.getTte clock ≤ 0 then .ok 0
        else (surf.getVol fn clock strike).map fun vol =>
          Black.black76Price fn surf.forward strike (surf.getTte clock) vol 0 putCall := by
  unfold SABRSurface.getTheo
  cases surf.cached clock strike putCall with
  | some theo => rfl
  | none =>
    simp only
    split
    · rfl
    · cases surf.getVol fn clock strike <;> rfl

theorem same_cached (same : SameReads before after) (clock : Clock 𝕜) (strike : 𝕜) (putCall : String) :
    after.cached clock strike putCall = before.cached clock strike putCall := by
  unfold SABRSurface.cached
  rw [same.cache, same.ttl]

omit [LinearOrder 𝕜] in
theorem same_tte (same : SameReads before after) (clock : Clock 𝕜) : after.getTte clock = before.getTte clock := by
  unfold SABRSurface.getTte
  rw [same.expiry]

theorem same_forward_prices (same : SameReads before after) (forward : after.forward = before.forward) :
    SamePrices fn before after := by
  intro clock strike putCall
  have vol : after.getVol fn clock strike = before.getVol fn clock strike := by
    unfold SABRSurface.getVol SABRSurface.fitSide
    rw [same_tte same, same.sides, same.beta, forward]
  refine ⟨vol, ?_⟩
  rw [getTheo_fst, getTheo_fst, same_cached same, same_tte same, vol, forward]

-- Without an expiry nothing is priced.
theorem no_expiry_prices (same : SameReads before after) (missing : before.frontMonthExpiry = none) :
    SamePrices fn before after := by
  intro clock strike putCall
  have tte : before.getTte clock = 0 := by
    unfold SABRSurface.getTte
    rw [missing]
  have tte' : after.getTte clock = 0 := (same_tte same clock).trans tte
  constructor
  · unfold SABRSurface.getVol
    rw [tte, tte']
    simp
  · rw [getTheo_fst, getTheo_fst, same_cached same, tte, tte']
    simp

-- Past the life of what is cached, a strike of zero is priced at what the option is
-- worth at once: the forward itself.
theorem getTheo_zero (surf : SABRSurface model 𝕜) {clock : Clock 𝕜} (positive : 0 < surf.getTte clock)
    {putCall : String} (stale : surf.cached clock 0 putCall = none) :
    (surf.getTheo fn clock 0 putCall).map Prod.fst = .ok (Black.intrinsic surf.forward 0 putCall) := by
  obtain ⟨vol, found⟩ := vol_nonpositive fn model surf.beta (surf.sideParams (surf.fitSide 0)) le_rfl (surf.getTte clock)
  have looked : surf.getVol fn clock 0 = .ok vol := (if_neg positive.not_ge).trans (found surf.forward)
  rw [getTheo_fst, stale, looked]
  simp only [if_neg positive.not_ge]
  exact congrArg Except.ok (Black.black76Price_nonpositive fn surf.forward le_rfl _ _ _ _)

section Ordered

variable [IsStrictOrderedRing 𝕜]

theorem stale_later (surf : SABRSurface model 𝕜) (strike : 𝕜) (putCall : String) :
    ∃ from_ : 𝕜, ∀ clock : Clock 𝕜, from_ ≤ clock.monotonic → surf.cached clock strike putCall = none := by
  cases found : surf.theoCache.get (strike, putCall) with
  | none =>
    refine ⟨0, fun clock _ => ?_⟩
    unfold SABRSurface.cached
    rw [found]
    rfl
  | some entry =>
    refine ⟨entry.2 + surf.theoCacheTtlSec, fun clock late => ?_⟩
    unfold SABRSurface.cached
    rw [found]
    simp only [Option.filter_some, Option.map_eq_none_iff]
    rw [if_neg]
    simp only [decide_eq_true_eq, not_lt]
    linarith

-- The two sides of a strike of zero tell one forward from another.
theorem intrinsic_zero {f g : 𝕜} (calls : Black.intrinsic f 0 "C" = Black.intrinsic g 0 "C")
    (puts : Black.intrinsic f 0 "P" = Black.intrinsic g 0 "P") : f = g := by
  have call : Black.isCall "C" = true := by decide
  have put : Black.isCall "P" = false := by decide
  simp only [Black.intrinsic, call, put, if_true, Bool.false_eq_true, if_false, sub_zero, zero_sub] at calls puts
  rw [← max_zero_sub_max_neg_zero_eq_self f, calls, puts, max_zero_sub_max_neg_zero_eq_self]

theorem same_prices_forward (same : SameReads before after) {expiry : String}
    (dated : before.frontMonthExpiry = some expiry) (prices : SamePrices fn before after) :
    after.forward = before.forward := by
  obtain ⟨calls, staleCall⟩ := stale_later before 0 "C"
  obtain ⟨puts, stalePut⟩ := stale_later before 0 "P"
  let clock : Clock 𝕜 := ⟨max calls puts, 0, fun _ => 1⟩
  have before_tte : before.getTte clock = 1 := by
    unfold SABRSurface.getTte
    rw [dated]
  have positive : 0 < before.getTte clock := before_tte ▸ one_pos
  have positive' : 0 < after.getTte clock := same_tte same clock ▸ positive
  have quoted {putCall : String} (stale : before.cached clock 0 putCall = none) :
      Black.intrinsic after.forward 0 putCall = Black.intrinsic before.forward 0 putCall := by
    have theos := (prices clock 0 putCall).2
    rw [getTheo_zero before positive stale,
      getTheo_zero after positive' ((same_cached same clock 0 putCall).trans stale)] at theos
    exact Except.ok.inj theos
  exact intrinsic_zero (quoted (staleCall clock (le_max_left _ _))) (quoted (stalePut clock (le_max_right _ _)))

end Ordered

end Prices

theorem rejected_reads {tsi : Tsi 𝕜 Anchor} {clock : Clock 𝕜} {m : MultiExpirySABR model 𝕜}
    {surf : SABRSurface model 𝕜} {exp : String} {res : FitResult model 𝕜} (rejected : Rejected tsi clock m surf exp res) :
    SameReads surf (m.applyFitToSurface tsi clock surf exp res).surf := by
  have applied := applyFitToSurface_applied tsi clock m surf exp res
  constructor
  · exact applied.beta
  · exact applied.expiry
  · exact applied.ttl
  · funext side
    rw [applied.sides side, rejected side]
    rfl
  · exact applied.cache rejected

section Run

structure FitEvent (model : VolModel) (𝕜 : Type*) where
  clock : Clock 𝕜
  expiry : String
  result : FitResult model 𝕜

-- The surfaces, with the fit behind each side's parameters and the forward it was made with.
structure Traced (model : VolModel) (𝕜 : Type*) where
  state : MultiExpirySABR model 𝕜
  origin : String → Side → Option (Fit 𝕜 model × 𝕜)

variable (tsi : Tsi 𝕜 Anchor)

def takenBy (t : Traced model 𝕜) (e : FitEvent model 𝕜) (side : Side) : Option (Fit 𝕜 model) :=
  (t.state.surfaces.get e.expiry).bind fun surf => taken tsi e.clock t.state surf e.expiry e.result side

def step (t : Traced model 𝕜) (e : FitEvent model 𝕜) : Traced model 𝕜 × List (Published model 𝕜) :=
  let applied := t.state.applyFit tsi e.clock e.expiry e.result
  ({ state := applied.1
     origin := fun exp side =>
       if exp = e.expiry then
         ((takenBy tsi t e side).map fun result => (result, e.result.forward)).or (t.origin exp side)
       else t.origin exp side }, applied.2)

-- Every side's parameters are those of the fit recorded for it.
def Recorded (t : Traced model 𝕜) : Prop := ∀ exp surf, t.state.surfaces.get exp = some surf →
  ∀ side, (surf.sideParams side).prior model = (t.origin exp side).map Prod.fst ∧
    ∀ fit f, t.origin exp side = some (fit, f) → (surf.sideParams side).commit fit = surf.sideParams side

def Matched (t : Traced model 𝕜) : Prop := ∀ exp surf, t.state.surfaces.get exp = some surf →
  ∀ side p f, t.origin exp side = some (p, f) → surf.forward = f

-- Each side takes the fit, or has never taken one, or the fit repeats the forward.
def Meets (t : Traced model 𝕜) (e : FitEvent model 𝕜) : Prop := ∀ surf, t.state.surfaces.get e.expiry = some surf →
  ∀ side, taken tsi e.clock t.state surf e.expiry e.result side ≠ none ∨
    (surf.sideParams side).prior model = none ∨ e.result.forward = surf.forward

variable {tsi}

-- What a fit leaves under each expiry.
theorem step_surface (t : Traced model 𝕜) (e : FitEvent model 𝕜) (exp : String) :
    (step tsi t e).1.state.surfaces.get exp =
      if exp = e.expiry then (t.state.surfaces.get exp).map fun surf =>
        (t.state.applyFitToSurface tsi e.clock surf exp e.result).surf
      else t.state.surfaces.get exp := by
  change (t.state.applyFit tsi e.clock e.expiry e.result).1.surfaces.get exp = _
  unfold MultiExpirySABR.applyFit
  cases found : t.state.surfaces.get e.expiry with
  | none =>
    by_cases own : exp = e.expiry
    · subst own
      simp [found]
    · simp [own]
  | some surf =>
    by_cases own : exp = e.expiry
    · subst own
      simp [found, HashMap.get_set]
    · simp [own, HashMap.get_set]

theorem step_own {t : Traced model 𝕜} {e : FitEvent model 𝕜} {surf : SABRSurface model 𝕜}
    (found : t.state.surfaces.get e.expiry = some surf) :
    (step tsi t e).1.state.surfaces.get e.expiry =
      some (t.state.applyFitToSurface tsi e.clock surf e.expiry e.result).surf := by
  rw [step_surface, if_pos rfl, found]
  rfl

theorem step_origin {t : Traced model 𝕜} {e : FitEvent model 𝕜} {surf : SABRSurface model 𝕜}
    (found : t.state.surfaces.get e.expiry = some surf) (side : Side) :
    (step tsi t e).1.origin e.expiry side =
      ((taken tsi e.clock t.state surf e.expiry e.result side).map fun result => (result, e.result.forward)).or
        (t.origin e.expiry side) := by
  simp only [step, takenBy, if_pos, found, Option.bind_some]

-- A surface after a fit: that of another expiry as it was, or the fit's own with what
-- its sides have taken.
theorem step_cases {t : Traced model 𝕜} {e : FitEvent model 𝕜} {exp : String} {later : SABRSurface model 𝕜}
    (found : (step tsi t e).1.state.surfaces.get exp = some later) :
    exp ≠ e.expiry ∧ t.state.surfaces.get exp = some later ∧
        (∀ side, (step tsi t e).1.origin exp side = t.origin exp side) ∨
      ∃ surf, exp = e.expiry ∧ t.state.surfaces.get exp = some surf ∧ later.forward = e.result.forward ∧
        ∀ side, later.sideParams side = (surf.sideParams side).take (taken tsi e.clock t.state surf exp e.result side) ∧
          (step tsi t e).1.origin exp side =
            ((taken tsi e.clock t.state surf exp e.result side).map fun result => (result, e.result.forward)).or
              (t.origin exp side) := by
  rw [step_surface] at found
  by_cases own : exp = e.expiry
  · subst own
    rw [if_pos rfl, Option.map_eq_some_iff] at found
    obtain ⟨surf, before, same⟩ := found
    have applied := applyFitToSurface_applied tsi e.clock t.state surf e.expiry e.result
    subst same
    refine .inr ⟨surf, rfl, before, applied.forward, ?_⟩
    intro side
    exact ⟨applied.sides side, step_origin before side⟩
  · rw [if_neg own] at found
    refine .inl ⟨own, found, ?_⟩
    intro side
    exact if_neg own

theorem step_recorded {t : Traced model 𝕜} (given : Recorded t) (e : FitEvent model 𝕜) :
    Recorded (step tsi t e).1 := by
  intro exp later found side
  rcases step_cases found with ⟨_, before, origin⟩ | ⟨surf, _, before, _, sides⟩
  · rw [origin]
    exact given exp later before side
  · obtain ⟨params, origin⟩ := sides side
    rw [params, origin]
    cases taken tsi e.clock t.state surf exp e.result side with
    | none => exact given exp surf before side
    | some result =>
      refine ⟨prior_commit _ result, ?_⟩
      intro fit f same
      cases same
      exact commit_commit _ result

-- A fit keeps parameters and forwards together exactly if it meets every side.
theorem step_matched {t : Traced model 𝕜} (recorded : Recorded t) (matched : Matched t) (e : FitEvent model 𝕜) :
    Matched (step tsi t e).1 ↔ Meets tsi t e := by
  constructor
  · intro given surf found side
    cases took : taken tsi e.clock t.state surf e.expiry e.result side with
    | some result => exact .inl (by simp)
    | none =>
      right
      cases held : (surf.sideParams side).prior model with
      | none => exact .inl rfl
      | some p =>
        right
        have known := (recorded e.expiry surf found side).1.symm.trans held
        obtain ⟨⟨fit, f⟩, origin, _⟩ := Option.map_eq_some_iff.mp known
        have applied := applyFitToSurface_applied tsi e.clock t.state surf e.expiry e.result
        have still := @step_origin _ _ _ _ _ tsi _ _ _ found side
        rw [took, origin] at still
        rw [← applied.forward, given e.expiry _ (step_own found) side fit f still,
          matched e.expiry surf found side fit f origin]
  · intro meets exp later found side fit f origin
    rcases step_cases found with ⟨_, before, same⟩ | ⟨surf, own, before, forward, sides⟩
    · rw [same] at origin
      exact matched exp later before side fit f origin
    · obtain ⟨_, still⟩ := sides side
      subst own
      rw [still] at origin
      rw [forward]
      cases took : taken tsi e.clock t.state surf e.expiry e.result side with
      | some result =>
        rw [took] at origin
        cases origin
        rfl
      | none =>
        rw [took] at origin
        have held : t.origin e.expiry side = some (fit, f) := origin
        rcases meets surf before side with accepted | never | repeated
        · exact absurd took accepted
        · rw [(recorded e.expiry surf before side).1, held] at never
          cases never
        · rw [repeated]
          exact matched e.expiry surf before side fit f held

-- Each side is priced by the fit that its parameters came from, at that fit's forward.
structure OwnForward (fn : Elementary 𝕜) (t : Traced model 𝕜) : Prop where
  forward : Matched t
  vol : ∀ exp surf, t.state.surfaces.get exp = some surf → ∀ side fit f, t.origin exp side = some (fit, f) →
    ∀ clock strike, 0 < surf.getTte clock → surf.fitSide strike = side →
      surf.getVol fn clock strike = fit.vol fn surf.beta f strike (surf.getTte clock)

theorem matched_ownForward (fn : Elementary 𝕜) {t : Traced model 𝕜} (recorded : Recorded t) (matched : Matched t) :
    OwnForward fn t := by
  refine ⟨matched, ?_⟩
  intro exp surf found side fit f origin clock strike positive own
  rw [← matched exp surf found side fit f origin, ← vol_committed fn surf.beta
    ((recorded exp surf found side).2 fit f origin), ← own]
  exact if_neg positive.not_ge

theorem runs_ownForward (fn : Elementary 𝕜) {start : Traced model 𝕜} (recorded : Recorded start)
    (matched : Matched start) (fits : List (FitEvent model 𝕜)) :
    (∀ past, past <+: fits → OwnForward fn (Machine.after (step tsi) start past)) ↔
      Machine.Along (step tsi) (Meets tsi) start fits := by
  apply Machine.along_exact (fun t => Recorded t ∧ Matched t) (OwnForward fn)
  · intro t held
    exact matched_ownForward fn held.1 held.2
  · intro t e meets held
    exact ⟨step_recorded held.1 e, (step_matched held.1 held.2 e).mpr meets⟩
  · intro t e held later
    exact (step_matched held.1 held.2 e).mp later.forward
  · exact ⟨recorded, matched⟩

end Run

-- A rejected fit moves no price exactly if it repeats the forward or nothing is priced,
-- and a run of fits prices each side at its own fit's forward exactly if each of its
-- fits, for each side, is taken, or is the first, or repeats the forward.
theorem rejected_fit_exact [IsStrictOrderedRing 𝕜] (fn : Elementary 𝕜) (tsi : Tsi 𝕜 Anchor) (model : VolModel) :
    (∀ (clock : Clock 𝕜) (m : MultiExpirySABR model 𝕜) surf exp res, Rejected tsi clock m surf exp res →
      (SamePrices fn surf (m.applyFitToSurface tsi clock surf exp res).surf ↔
        res.forward = surf.forward ∨ surf.frontMonthExpiry = none)) ∧
    ∀ (start : Traced model 𝕜) fits, Recorded start → Matched start →
      ((∀ past, past <+: fits → OwnForward fn (Machine.after (step tsi) start past)) ↔
        Machine.Along (step tsi) (Meets tsi) start fits) := by
  constructor
  · intro clock m surf exp res rejected
    have same := rejected_reads rejected
    have applied := applyFitToSurface_applied tsi clock m surf exp res
    constructor
    · intro prices
      cases dated : surf.frontMonthExpiry with
      | none => exact .inr rfl
      | some expiry => exact .inl (applied.forward.symm.trans (same_prices_forward same dated prices))
    · intro given
      rcases given with repeated | missing
      · exact same_forward_prices same (applied.forward.trans repeated)
      · exact no_expiry_prices same missing
  · intro start fits recorded matched
    exact runs_ownForward fn recorded matched fits

section Moved

noncomputable def realFunctions : Elementary ℝ where
  ln := Real.log
  exp := Real.exp
  sqrt := Real.sqrt
  powf x y := x ^ y
  normCdf := ProbabilityTheory.cdf (ProbabilityTheory.gaussianReal 0 1)
  isFinite _ := true

theorem pyFinite_real (x : ℝ) : pyFinite realFunctions x = .ok x := rfl

def noTsi : Tsi ℝ Unit := ⟨fun _ _ => [], fun _ _ _ _ _ => none, fun _ => false⟩

noncomputable def eighth : Clock ℝ := ⟨0, 0, fun _ => 1/8⟩

noncomputable def wing : SVIParams ℝ := ⟨1/16, 1/2, 0, 0, 1/8, 1/200, 10⟩

-- Both sides fitted at a forward of 6, and then a fit at 6.5 with too few quotes on either.
noncomputable def wingFit : FitEvent .svi ℝ := ⟨eighth, "20260626", 6, none, fun _ => some wing, fun _ => []⟩
noncomputable def emptyFit : FitEvent .svi ℝ := ⟨eighth, "20260626", 13/2, none, fun _ => none, fun _ => []⟩

noncomputable def june : SABRSurface .svi ℝ := (SABRSurface.new (1/2)).setExpiry "20260626"

noncomputable def fresh : Traced .svi ℝ where
  state := ⟨8, 10, false, HashMap.set ∅ "20260626" june, ["20260626"], ∅⟩
  origin _ _ := none

theorem fresh_recorded : Recorded fresh := by
  intro exp surf found side
  change (HashMap.set ∅ "20260626" june).get exp = some surf at found
  rw [HashMap.get_set] at found
  split at found
  · cases found
    exact ⟨rfl, fun _ _ held => by cases held⟩
  · simp at found

theorem fresh_matched : Matched fresh := by
  intro exp surf _ side fit f held
  cases held

theorem wing_taken (side : Side) : taken noTsi eighth fresh.state june "20260626" wingFit.result side = some wing := by
  have fine : sviQualityOk wing 10 = true := by
    norm_num [sviQualityOk, wing]
  apply first_taken
  · rfl
  · exact if_pos fine
  · rfl

-- The wing's vol grows with the distance of the strike from the forward.
theorem wing_vol {f k : ℝ} (forward : 0 < f) (strike : 0 < k) :
    sviImpliedVol realFunctions f k (1/8) wing = .ok √((1/16 + 1/2 * √(Real.log (k / f) ^ 2 + 1/64)) / (1/8)) := by
  have guard : ¬((1/8 : ℝ) ≤ 0 ∨ k ≤ 0 ∨ f ≤ 0) := by
    rintro (expired | low | low) <;> linarith
  have logged : pyLog realFunctions (k / f) = .ok (Real.log (k / f)) := if_neg (div_pos strike forward).not_ge
  have spread : (Real.log (k / f) - 0) ^ 2 + (1/8) ^ 2 = Real.log (k / f) ^ 2 + 1/64 := by norm_num
  have square : 0 ≤ Real.log (k / f) ^ 2 + 1/64 := by positivity
  have rooted : pySqrt realFunctions (Real.log (k / f) ^ 2 + 1/64) = .ok √(Real.log (k / f) ^ 2 + 1/64) :=
    if_neg square.not_gt
  have variance : sviTotalVariance realFunctions (Real.log (k / f)) (1/16) (1/2) 0 0 (1/8) =
      .ok (1/16 + 1/2 * √(Real.log (k / f) ^ 2 + 1/64)) := by
    unfold sviTotalVariance
    simp only [pyFinite_real, Bind.bind, Except.bind]
    rw [spread, rooted]
    simp [pure, Except.pure]
  have total : 0 < 1/16 + 1/2 * √(Real.log (k / f) ^ 2 + 1/64) := by positivity
  have vol : pySqrt realFunctions ((1/16 + 1/2 * √(Real.log (k / f) ^ 2 + 1/64)) / (1/8)) =
      .ok √((1/16 + 1/2 * √(Real.log (k / f) ^ 2 + 1/64)) / (1/8)) :=
    if_neg (div_pos total (by norm_num)).le.not_gt
  unfold sviImpliedVol
  rw [if_neg guard, logged]
  change (sviTotalVariance realFunctions (Real.log (k / f)) (1/16) (1/2) 0 0 (1/8) >>= _) = _
  rw [variance]
  exact (if_neg total.not_ge).trans vol

theorem wing_vol_atm : sviImpliedVol realFunctions 6 6 (1/8) wing = .ok 1 := by
  have root : √(1/64 : ℝ) = 1/8 := by
    rw [show (1/64 : ℝ) = (1/8) ^ 2 by norm_num]
    exact Real.sqrt_sq (by norm_num)
  rw [wing_vol (by norm_num) (by norm_num), div_self (by norm_num), Real.log_one]
  norm_num [root]

theorem wing_vol_moved : sviImpliedVol realFunctions (13/2) 6 (1/8) wing ≠ .ok 1 := by
  rw [wing_vol (by norm_num) (by norm_num)]
  intro same
  have level := Real.sqrt_eq_one.mp (Except.ok.inj same)
  have root : √(Real.log (6 / (13/2)) ^ 2 + 1/64) = 1/8 := by linarith
  have square : Real.log (6 / (13/2)) ^ 2 + 1/64 = (1/8) ^ 2 :=
    (Real.sqrt_eq_iff_eq_sq (by positivity) (by norm_num)).mp root
  have flat : Real.log (6 / (13/2)) = 0 := by
    apply pow_eq_zero_iff two_ne_zero |>.mp
    linarith
  have below : Real.log (6 / (13/2)) < 0 := Real.log_neg (by norm_num) (by norm_num)
  exact below.ne flat

theorem june_fitted : ∃ before, (step noTsi fresh wingFit).1.state.surfaces.get "20260626" = some before ∧
    before.forward = 6 ∧ before.frontMonthExpiry = some "20260626" ∧
      (∀ side, (before.sideParams side).sviParams = some wing) ∧
      ∀ side, (step noTsi fresh wingFit).1.origin "20260626" side = some (wing, 6) := by
  have held : fresh.state.surfaces.get "20260626" = some june := by
    change (HashMap.set ∅ "20260626" june).get "20260626" = some june
    rw [HashMap.get_set, if_pos rfl]
  have applied := applyFitToSurface_applied noTsi eighth fresh.state june "20260626" wingFit.result
  refine ⟨(fresh.state.applyFitToSurface noTsi eighth june "20260626" wingFit.result).surf, step_own held,
    applied.forward, applied.expiry, ?_, ?_⟩
  · intro side
    rw [applied.sides side, wing_taken side]
    rfl
  · intro side
    refine (step_origin held side).trans ?_
    rw [show taken noTsi wingFit.clock fresh.state june wingFit.expiry wingFit.result side = some wing from
      wing_taken side]
    rfl

theorem wing_getVol {surf : SABRSurface .svi ℝ} (dated : surf.frontMonthExpiry = some "20260626")
    (sides : ∀ side, (surf.sideParams side).sviParams = some wing) (strike : ℝ) :
    surf.getVol realFunctions eighth strike = sviImpliedVol realFunctions surf.forward strike (1/8) wing := by
  have tte : surf.getTte eighth = 1/8 := by
    unfold SABRSurface.getTte
    rw [dated]
    rfl
  unfold SABRSurface.getVol SideParams.vol
  rw [tte, sides]
  exact if_neg (by norm_num)

-- A fit with nothing for either side, and the vol at 6 is another one; the sides are
-- priced at a forward that their parameters were not fitted to.
theorem rejected_fit_moves_vol : ∃ before after,
    (Machine.after (step noTsi) fresh [wingFit]).state.surfaces.get "20260626" = some before ∧
      (Machine.after (step noTsi) fresh [wingFit, emptyFit]).state.surfaces.get "20260626" = some after ∧
      Rejected noTsi eighth (Machine.after (step noTsi) fresh [wingFit]).state before "20260626" emptyFit.result ∧
      before.getVol realFunctions eighth 6 = .ok 1 ∧ after.getVol realFunctions eighth 6 ≠ .ok 1 ∧
      ¬OwnForward realFunctions (Machine.after (step noTsi) fresh [wingFit, emptyFit]) := by
  obtain ⟨before, held, forward, dated, sides, origin⟩ := june_fitted
  let fitted := (step noTsi fresh wingFit).1
  let moved := (fitted.state.applyFitToSurface noTsi eighth before "20260626" emptyFit.result).surf
  have rejected : Rejected noTsi eighth fitted.state before "20260626" emptyFit.result := missing_rejected fun _ => rfl
  have applied := applyFitToSurface_applied noTsi eighth fitted.state before "20260626" emptyFit.result
  have later : (step noTsi fitted emptyFit).1.state.surfaces.get "20260626" = some moved := step_own held
  have still (side : Side) : (moved.sideParams side).sviParams = some wing := by
    rw [(rejected_reads rejected).sides]
    exact sides side
  refine ⟨before, moved, held, later, rejected, ?_, ?_, ?_⟩
  · rw [wing_getVol dated sides, forward]
    exact wing_vol_atm
  · rw [wing_getVol (applied.expiry.trans dated) still, applied.forward]
    exact wing_vol_moved
  · intro own
    have recorded : (step noTsi fitted emptyFit).1.origin "20260626" .C = some (wing, 6) := by
      refine (step_origin held .C).trans ?_
      rw [show taken noTsi emptyFit.clock fitted.state before emptyFit.expiry emptyFit.result .C = none from rejected .C]
      exact origin .C
    have matched : moved.forward = 6 := own.forward "20260626" moved later .C wing 6 recorded
    rw [applied.forward] at matched
    norm_num [emptyFit] at matched

theorem rejected_fit_exact_wing :
    (SamePrices realFunctions june (fresh.state.applyFitToSurface noTsi eighth june "20260626" emptyFit.result).surf ↔
      emptyFit.result.forward = june.forward ∨ june.frontMonthExpiry = none) ∧
    ((∀ past, past <+: [wingFit, emptyFit] → OwnForward realFunctions (Machine.after (step noTsi) fresh past)) ↔
      Machine.Along (step noTsi) (Meets noTsi) fresh [wingFit, emptyFit]) :=
  ⟨(rejected_fit_exact realFunctions noTsi .svi).1 eighth fresh.state june "20260626" emptyFit.result
      (missing_rejected fun _ => rfl),
    (rejected_fit_exact realFunctions noTsi .svi).2 fresh [wingFit, emptyFit] fresh_recorded fresh_matched⟩

end Moved

end Corsair.Sabr
