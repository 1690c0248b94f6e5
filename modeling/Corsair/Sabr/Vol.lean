import Corsair.Black
import Corsair.Lib.Checked
import Corsair.Lib.Numeral

-- The vol formulas of sabr.py and the gates on their fits.
namespace Corsair.Sabr

open Black (Elementary)

variable {𝕜 : Type*} [Field 𝕜] [LinearOrder 𝕜]

inductive PyError where
  | zeroDivision | value | overflow
  deriving DecidableEq, Repr

structure SABRParams (𝕜 : Type*) where
  alpha : 𝕜
  beta : 𝕜
  rho : 𝕜
  nu : 𝕜
  rmse : 𝕜
  nPoints : ℤ

structure SVIParams (𝕜 : Type*) where
  a : 𝕜
  b : 𝕜
  rho : 𝕜
  m : 𝕜
  sigma : 𝕜
  rmse : 𝕜
  nPoints : ℤ

section Formulas

variable (fn : Elementary 𝕜)

def pyDiv (x y : 𝕜) : Except PyError 𝕜 := Checked.div .zeroDivision x y
def pyLog (x : 𝕜) : Except PyError 𝕜 := if x ≤ 0 then .error .value else .ok (fn.ln x)
def pySqrt (x : 𝕜) : Except PyError 𝕜 := if x < 0 then .error .value else .ok (fn.sqrt x)

-- `**` is the one operator here that raises where its result is not finite.
def pyFinite (x : 𝕜) : Except PyError 𝕜 := Checked.screen fn.isFinite .overflow x
def pyPow (x y : 𝕜) : Except PyError 𝕜 := pyFinite fn (fn.powf x y)

def xzOf (rho z : 𝕜) : Except PyError 𝕜 :=
  if |z| < 1/10^7 then .ok 1
  else do
    let sqrtTerm ← pySqrt fn (1 - 2 * rho * z + z * z)
    let inside ← pyDiv (sqrtTerm + z - rho) (1 - rho)
    let below ← pyLog fn inside
    pyDiv z below

def sabrImpliedVol (f k t alpha beta rho nu : 𝕜) : Except PyError 𝕜 :=
  if t ≤ 0 ∨ alpha ≤ 0 ∨ f ≤ 0 ∨ k ≤ 0 then .ok (if 0 < alpha then alpha else 1/100)
  else
    let eps : 𝕜 := 1/10^7
    if |f - k| < eps * f then do
      let fmidBeta ← pyPow fn f (1 - beta)
      let term1 ← pyDiv alpha fmidBeta
      let slope2 ← pyFinite fn ((1 - beta)^2)
      let alpha2 ← pyFinite fn (alpha^2)
      let p1 ← pyDiv (slope2 / 24 * alpha2) (← pyPow fn f (2 - 2 * beta))
      let p2 ← pyDiv (1/4 * rho * beta * nu * alpha) fmidBeta
      let rho2 ← pyFinite fn (rho^2)
      let nu2 ← pyFinite fn (nu^2)
      let p3 := (2 - 3 * rho2) * nu2 / 24
      return term1 * (1 + (p1 + p2 + p3) * t)
    else do
      let fk := f * k
      let fkBeta ← pyPow fn fk ((1 - beta) / 2)
      let logFk ← pyLog fn (f / k)
      let z := nu / alpha * fkBeta * logFk
      let xz ← xzOf fn rho z
      let oneMinusBeta := 1 - beta
      let slope2 ← pyFinite fn (oneMinusBeta^2)
      let log2 ← pyFinite fn (logFk^2)
      let slope4 ← pyFinite fn (oneMinusBeta^4)
      let log4 ← pyFinite fn (logFk^4)
      let denom1 := fkBeta * (1 + slope2 / 24 * log2 + slope4 / 1920 * log4)
      let alpha2 ← pyFinite fn (alpha^2)
      let p1 ← pyDiv (slope2 / 24 * alpha2) (← pyPow fn fk oneMinusBeta)
      let p2 ← pyDiv (1/4 * rho * beta * nu * alpha) fkBeta
      let rho2 ← pyFinite fn (rho^2)
      let nu2 ← pyFinite fn (nu^2)
      let p3 := (2 - 3 * rho2) * nu2 / 24
      let level ← pyDiv alpha denom1
      return level * xz * (1 + (p1 + p2 + p3) * t)

def sviTotalVariance (k a b rho m sigma : 𝕜) : Except PyError 𝕜 := do
  let root ← pySqrt fn ((← pyFinite fn ((k - m)^2)) + (← pyFinite fn (sigma^2)))
  return a + b * (rho * (k - m) + root)

def sviImpliedVol (f k t : 𝕜) (p : SVIParams 𝕜) : Except PyError 𝕜 :=
  if t ≤ 0 ∨ k ≤ 0 ∨ f ≤ 0 then .ok 0
  else do
    let logMoneyness ← pyLog fn (k / f)
    let w ← sviTotalVariance fn logMoneyness p.a p.b p.rho p.m p.sigma
    if w ≤ 0 then return 1/1000
    else pySqrt fn (w / t)

end Formulas

def sabrQualityOk (result : SABRParams 𝕜) (minStrikes : ℤ) : Bool :=
  if result.nPoints < minStrikes then false
  else if result.alpha ≤ 0 then false
  else if |result.rho| > 95/100 then false
  else if result.nu ≤ 0 ∨ result.nu > 10 then false
  else true

def sviQualityOk (result : SVIParams 𝕜) (minStrikes : ℤ) : Bool :=
  if result.nPoints < minStrikes then false
  else if result.b ≤ 0 then false
  else if |result.rho| > 998/1000 ∧ result.sigma < 1/100 then false
  else true

inductive VolModel where
  | sabr | svi
  deriving DecidableEq, Repr

inductive Side where
  | C | P
  deriving DecidableEq, Repr

-- The fits that a surface of the model takes.
def Fit (𝕜 : Type*) : VolModel → Type _
  | .sabr => SABRParams 𝕜
  | .svi => SVIParams 𝕜

def Fit.rmse : {model : VolModel} → Fit 𝕜 model → 𝕜
  | .sabr, fit => SABRParams.rmse fit
  | .svi, fit => SVIParams.rmse fit

-- surf._side_params[side]
structure SideParams (𝕜 : Type*) where
  alpha : 𝕜
  rho : 𝕜
  nu : 𝕜
  params : Option (SABRParams 𝕜)
  sviParams : Option (SVIParams 𝕜)

def SideParams.initial : SideParams 𝕜 := ⟨6/10, -2/10, 4/10, none, none⟩

def SideParams.prior (sp : SideParams 𝕜) : (model : VolModel) → Option (Fit 𝕜 model)
  | .sabr => sp.params
  | .svi => sp.sviParams

def SideParams.commit (sp : SideParams 𝕜) : {model : VolModel} → Fit 𝕜 model → SideParams 𝕜
  | .sabr, result =>
    let result : SABRParams 𝕜 := result
    { sp with alpha := result.alpha, rho := result.rho, nu := result.nu, params := some result }
  | .svi, result => { sp with sviParams := some result }

-- The vol of one side's parameters, at a forward.
def SideParams.vol (fn : Elementary 𝕜) (model : VolModel) (beta : 𝕜) (sp : SideParams 𝕜) (forward strike tte : 𝕜) :
    Except PyError 𝕜 :=
  match model, sp.sviParams with
  | .svi, some p => sviImpliedVol fn forward strike tte p
  | _, _ => sabrImpliedVol fn forward strike tte sp.alpha beta sp.rho sp.nu

omit [Field 𝕜] [LinearOrder 𝕜] in
theorem prior_commit (sp : SideParams 𝕜) {model : VolModel} (result : Fit 𝕜 model) :
    (sp.commit result).prior model = some result := by
  cases model <;> rfl

-- The vol of a fit, at a forward.
def Fit.vol (fn : Elementary 𝕜) (beta : 𝕜) : {model : VolModel} → Fit 𝕜 model → (forward strike tte : 𝕜) →
    Except PyError 𝕜
  | .sabr, fit, forward, strike, tte =>
    let fit : SABRParams 𝕜 := fit
    sabrImpliedVol fn forward strike tte fit.alpha beta fit.rho fit.nu
  | .svi, fit, forward, strike, tte => sviImpliedVol fn forward strike tte fit

omit [Field 𝕜] [LinearOrder 𝕜] in
theorem commit_commit (sp : SideParams 𝕜) {model : VolModel} (result : Fit 𝕜 model) :
    (sp.commit result).commit result = sp.commit result := by
  cases model <;> rfl

-- A side that a fit has been committed to is priced by that fit.
theorem vol_committed (fn : Elementary 𝕜) {model : VolModel} (beta : 𝕜) {sp : SideParams 𝕜} {fit : Fit 𝕜 model}
    (committed : sp.commit fit = sp) (forward strike tte : 𝕜) :
    sp.vol fn model beta forward strike tte = fit.vol fn beta forward strike tte := by
  rw [← committed]
  cases model <;> rfl

-- At a strike of zero or less no formula is evaluated.
theorem vol_nonpositive (fn : Elementary 𝕜) (model : VolModel) (beta : 𝕜) (sp : SideParams 𝕜) {strike : 𝕜}
    (nonpositive : strike ≤ 0) (tte : 𝕜) :
    ∃ vol, ∀ forward, sp.vol fn model beta forward strike tte = .ok vol := by
  unfold SideParams.vol
  split
  · exact ⟨0, fun forward => if_pos (.inr (.inl nonpositive))⟩
  · exact ⟨_, fun forward => if_pos (.inr (.inr (.inr nonpositive)))⟩

end Corsair.Sabr
