import Corsair.Sabr.Lookups

namespace Corsair.Sabr

-- What lookups answer, in the terms of the crate's formulas.
section Served

variable {model : VolModel} {Anchor : Type*}

noncomputable def SideParams.crateVol (model : VolModel) (beta : ℝ) (sp : SideParams ℝ) (forward strike tte : ℝ) : ℝ :=
  match model, sp.sviParams with
  | .svi, some p => Calibrate.sviImpliedVol realFunctions forward strike tte p.a p.b p.rho p.m p.sigma
  | _, _ => Calibrate.sabrImpliedVol realFunctions forward strike tte sp.alpha beta sp.rho sp.nu

noncomputable def sideOf (forward strike : ℝ) : Side := if 0 < forward then if forward ≤ strike then .C else .P else .C

noncomputable def volOf (model : VolModel) (beta : ℝ) (sides : Side → SideParams ℝ) (forward strike tte : ℝ) : ℝ :=
  (sides (sideOf forward strike)).crateVol model beta forward strike tte

noncomputable def theoOf (model : VolModel) (beta : ℝ) (sides : Side → SideParams ℝ) (forward strike tte : ℝ)
    (putCall : String) : ℝ :=
  Black.black76Price realFunctions forward strike tte (volOf model beta sides forward strike tte) 0 putCall

-- A price of the present fits, at the time of an actual lookup and the forward that the
-- surface then had.
def Priced (beta : ℝ) (facts : List (SurfaceFact model ℝ)) (exp : String) (asked : Clock ℝ) (strike : ℝ) (putCall : String)
    (theo : ℝ) : Prop :=
  0 < asked.timeToExpiryYears exp ∧ ∃ past later, facts = past ++ .asked exp asked strike putCall :: later ∧
    theo = theoOf model beta (sidesOf exp facts) (forwardOf exp past) strike (asked.timeToExpiryYears exp) putCall

structure Sound (beta : ℝ) (facts : List (SurfaceFact model ℝ)) (exp : String) (surf : SABRSurface model ℝ) : Prop where
  dated : surf.frontMonthExpiry = some exp
  ttl : surf.theoCacheTtlSec = 5
  exponent : surf.beta = beta
  sides : surf.sideParams = sidesOf exp facts
  sloped : ∀ side, |(surf.sideParams side).rho| < 1
  forward : surf.forward = forwardOf exp facts
  calibrated : surf.lastCalibration = none ↔ ∀ side, fitOf exp side facts = none
  cache : ∀ strike putCall theo time, surf.theoCache.get (strike, putCall) = some (theo, time) →
    ∃ asked : Clock ℝ, asked.monotonic = time ∧ Priced beta facts exp asked strike putCall theo

variable {beta : ℝ} {facts later : List (SurfaceFact model ℝ)} {exp : String} {surf : SABRSurface model ℝ}

section Asked

end Asked

section Steps

variable {m : MultiExpirySABR model ℝ}

section Fit

variable {tsi : Tsi ℝ Anchor} {e : FitEvent model ℝ}

end Fit

variable {tsi : Tsi ℝ Anchor}

end Steps

section Answers

variable {m : MultiExpirySABR model ℝ}

end Answers

end Served

end Corsair.Sabr
