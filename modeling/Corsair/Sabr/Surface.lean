import Corsair.Lib.HashMap
import Corsair.Sabr.Vol
import Mathlib.Data.Finset.Insert

namespace Corsair.Sabr

open Black (Elementary)

variable {𝕜 : Type*} [Field 𝕜] [LinearOrder 𝕜] {model : VolModel}

-- The clocks read while a price is looked up or a fit is applied.
structure Clock (𝕜 : Type*) where
  monotonic : 𝕜
  now : ℤ
  timeToExpiryYears : String → 𝕜

structure SABRSurface (model : VolModel) (𝕜 : Type*) where
  beta : 𝕜
  forward : 𝕜
  spotAtFit : 𝕜
  lastCalibration : Option ℤ
  sideParams : Side → SideParams 𝕜
  frontMonthExpiry : Option String
  theoCache : HashMap (𝕜 × String) (𝕜 × 𝕜)
  theoCacheTtlSec : 𝕜

namespace SABRSurface

def new (beta : 𝕜) : SABRSurface model 𝕜 where
  beta := beta
  forward := 0
  spotAtFit := 0
  lastCalibration := none
  sideParams _ := .initial
  frontMonthExpiry := none
  theoCache := ∅
  theoCacheTtlSec := 5

def setExpiry (surf : SABRSurface model 𝕜) (expiry : String) : SABRSurface model 𝕜 :=
  { surf with frontMonthExpiry := some expiry }

def getTte (surf : SABRSurface model 𝕜) (clock : Clock 𝕜) : 𝕜 :=
  match surf.frontMonthExpiry with
  | none => 0
  | some expiry => clock.timeToExpiryYears expiry

-- The side whose fit a strike is priced from.
def fitSide (surf : SABRSurface model 𝕜) (strike : 𝕜) : Side :=
  if surf.forward > 0 then if strike ≥ surf.forward then .C else .P else .C

section Lookups

variable (fn : Elementary 𝕜)

def getVol (surf : SABRSurface model 𝕜) (clock : Clock 𝕜) (strike : 𝕜) : Except PyError 𝕜 :=
  let tte := surf.getTte clock
  if tte ≤ 0 then .ok 0
  else (surf.sideParams (surf.fitSide strike)).vol fn model surf.beta surf.forward strike tte

def cached (surf : SABRSurface model 𝕜) (clock : Clock 𝕜) (strike : 𝕜) (putCall : String) : Option 𝕜 :=
  ((surf.theoCache.get (strike, putCall)).filter fun entry =>
    clock.monotonic - entry.2 < surf.theoCacheTtlSec).map Prod.fst

def getTheo (surf : SABRSurface model 𝕜) (clock : Clock 𝕜) (strike : 𝕜) (putCall : String) :
    Except PyError (𝕜 × SABRSurface model 𝕜) :=
  match surf.cached clock strike putCall with
  | some theo => .ok (theo, surf)
  | none =>
    let tte := surf.getTte clock
    if tte ≤ 0 then .ok (0, surf)
    else do
      let vol ← surf.getVol fn clock strike
      let theo := Black.black76Price fn surf.forward strike tte vol 0 putCall
      return (theo, { surf with theoCache := surf.theoCache.set (strike, putCall) (theo, clock.monotonic) })

end Lookups

end SABRSurface

-- backmonth_surface.py, which the fallback takes as it is.
structure Tsi (𝕜 Anchor : Type*) where
  extractAtmAnchors : List (𝕜 × 𝕜) → 𝕜 → List Anchor
  fitBackmonthFromFrontmonth : SVIParams 𝕜 → List Anchor → (forward tte : 𝕜) → (donorExpiryTag : String) →
    Option (SVIParams 𝕜)
  noArbCheck : SVIParams 𝕜 → Bool

structure FitResult (model : VolModel) (𝕜 : Type*) where
  forward : 𝕜
  spotAtFit : Option 𝕜
  side : Side → Option (Fit 𝕜 model)
  obs : Side → List (𝕜 × 𝕜)

-- What the broker's IPC forwards to the trader.
structure Published (model : VolModel) (𝕜 : Type*) where
  expiry : String
  side : Side
  params : Fit 𝕜 model
  beta : 𝕜
  forward : 𝕜
  tte : 𝕜

structure MultiExpirySABR (model : VolModel) (𝕜 : Type*) where
  sabrMinStrikes : ℤ
  sviMinStrikes : ℤ
  publishes : Bool
  surfaces : HashMap String (SABRSurface model 𝕜)
  expiries : List String
  refitPending : Finset String

namespace MultiExpirySABR

variable {Anchor : Type*} (tsi : Tsi 𝕜 Anchor) (clock : Clock 𝕜)

-- The first other expiry with a fit of the side, in the order of the expiries.
def tsiDonor (m : MultiExpirySABR model 𝕜) (exp : String) (side : Side) : Option (SVIParams 𝕜 × String) :=
  m.expiries.findSome? fun candidate =>
    if candidate = exp then none
    else do
      let other ← m.surfaces.get candidate
      let p ← (other.sideParams side).sviParams
      return (p, candidate)

def tsiFallback (m : MultiExpirySABR model 𝕜) (exp : String) (side : Side) (forward : 𝕜)
    (observations : List (𝕜 × 𝕜)) : Option (SVIParams 𝕜) := do
  let (donor, donorExp) ← m.tsiDonor exp side
  let tte := clock.timeToExpiryYears exp
  if tte ≤ 0 ∨ forward ≤ 0 then none
  else
    let anchors := tsi.extractAtmAnchors observations forward
    if anchors.isEmpty then none
    else
      let fallback ← tsi.fitBackmonthFromFrontmonth donor anchors forward tte donorExp
      if tsi.noArbCheck fallback then some fallback else none

-- The quality gate, with the fallback where it fails; whether the fallback was used.
def qualityGate (m : MultiExpirySABR model 𝕜) (exp : String) (res : FitResult model 𝕜) (side : Side)
    (result : Fit 𝕜 model) : Option (Fit 𝕜 model × Bool) :=
  match model with
  | .sabr => if sabrQualityOk result (m.sabrMinStrikes / 2) then some (result, false) else none
  | .svi =>
    if sviQualityOk result m.sviMinStrikes then some (result, false)
    else do
      let fallback ← m.tsiFallback tsi clock exp side res.forward (res.obs side)
      some (fallback, true)

def rmseRegression (prior : Option (Fit 𝕜 model)) (result : Fit 𝕜 model) : Bool :=
  match prior with
  | none => false
  | some prior => result.rmse > max (prior.rmse * (3/2)) (1/100)

-- The fit that a side takes from a result, if it takes one.
def accepted (m : MultiExpirySABR model 𝕜) (sp : SideParams 𝕜) (exp : String) (res : FitResult model 𝕜)
    (side : Side) : Option (Fit 𝕜 model) := do
  let (result, tsiUsed) ← (res.side side).bind (m.qualityGate tsi clock exp res side)
  if !tsiUsed ∧ rmseRegression (sp.prior model) result then none else some result

structure Applying (model : VolModel) (𝕜 : Type*) where
  surf : SABRSurface model 𝕜
  anyUpdated : Bool
  published : List (Published model 𝕜)

def applySide (m : MultiExpirySABR model 𝕜) (exp : String) (res : FitResult model 𝕜) (s : Applying model 𝕜)
    (side : Side) : Applying model 𝕜 :=
  let sp := s.surf.sideParams side
  match m.accepted tsi clock sp exp res side with
  | none => s
  | some result =>
    { surf := { s.surf with sideParams := Function.update s.surf.sideParams side (sp.commit result) }
      anyUpdated := true
      published :=
        if m.publishes then
          s.published ++ [⟨exp, side, result, s.surf.beta, res.forward, clock.timeToExpiryYears exp⟩]
        else s.published }

def applySides (m : MultiExpirySABR model 𝕜) (surf : SABRSurface model 𝕜) (exp : String)
    (res : FitResult model 𝕜) : Applying model 𝕜 :=
  let surf := { surf with forward := res.forward, spotAtFit := res.spotAtFit.getD res.forward }
  [Side.C, Side.P].foldl (m.applySide tsi clock exp res) ⟨surf, false, []⟩

def applyFitToSurface (m : MultiExpirySABR model 𝕜) (surf : SABRSurface model 𝕜) (exp : String)
    (res : FitResult model 𝕜) : Applying model 𝕜 :=
  let s := m.applySides tsi clock surf exp res
  if s.anyUpdated then { s with surf := { s.surf with lastCalibration := some clock.now, theoCache := ∅ } }
  else s

-- One expiry of _apply_fit_results, and the set of refitted expiries it adds to.
def applyFit (m : MultiExpirySABR model 𝕜) (exp : String) (res : FitResult model 𝕜) :
    MultiExpirySABR model 𝕜 × List (Published model 𝕜) :=
  match m.surfaces.get exp with
  | none => (m, [])
  | some surf =>
    let s := m.applyFitToSurface tsi clock surf exp res
    ({ m with
        surfaces := m.surfaces.set exp s.surf
        refitPending := if s.anyUpdated then insert exp m.refitPending else m.refitPending }, s.published)

end MultiExpirySABR

end Corsair.Sabr
