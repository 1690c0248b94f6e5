import Corsair.Lib.Register
import Corsair.Sabr.Formulas

namespace Corsair.Sabr

open Black (Elementary)

section Model

variable {𝕜 : Type*} [Field 𝕜] [LinearOrder 𝕜] {model : VolModel}

namespace MultiExpirySABR

def new (sabrMinStrikes sviMinStrikes : ℤ) (publishes : Bool) : MultiExpirySABR model 𝕜 where
  sabrMinStrikes := sabrMinStrikes
  sviMinStrikes := sviMinStrikes
  publishes := publishes
  surfaces := ∅
  expiries := []
  refitPending := ∅

variable (m : MultiExpirySABR model 𝕜)

def frontMonth : Option String := m.expiries.head?

-- The loop that adds what is new.
def addExpiry (beta : 𝕜) (surfaces : HashMap String (SABRSurface model 𝕜)) (exp : String) :
    HashMap String (SABRSurface model 𝕜) :=
  match surfaces.get exp with
  | none => surfaces.set exp ((SABRSurface.new beta).setExpiry exp)
  | some surf => surfaces.set exp (surf.setExpiry exp)

def setExpiries (beta : 𝕜) (expiries : List String) : MultiExpirySABR model 𝕜 :=
  { m with
    expiries := expiries
    surfaces := (expiries.foldl (addExpiry beta) m.surfaces).retain (· ∈ expiries) }

def consumeRefitPending : Finset String × MultiExpirySABR model 𝕜 := (m.refitPending, { m with refitPending := ∅ })

section Lookups

variable (fn : Elementary 𝕜)

def getTheo (clock : Clock 𝕜) (strike : 𝕜) (putCall : String) (expiry : Option String) :
    Except PyError (𝕜 × MultiExpirySABR model 𝕜) :=
  match expiry <|> m.frontMonth with
  | none => .ok (0, m)
  | some exp =>
    match m.surfaces.get exp with
    | none => .ok (0, m)
    | some surf =>
      if surf.lastCalibration = none then .ok (0, m)
      else do
        let (theo, surf) ← surf.getTheo fn clock strike putCall
        return (theo, { m with surfaces := m.surfaces.set exp surf })

def getVol (clock : Clock 𝕜) (strike : 𝕜) (expiry : Option String) : Except PyError 𝕜 :=
  match expiry <|> m.frontMonth with
  | none => .ok 0
  | some exp =>
    match m.surfaces.get exp with
    | none => .ok 0
    | some surf => surf.getVol fn clock strike

end Lookups

end MultiExpirySABR

inductive SurfaceEvent (model : VolModel) (𝕜 : Type*) where
  | expiriesSet (expiries : List String)
  | fitted (e : FitEvent model 𝕜)
  | theoAsked (clock : Clock 𝕜) (strike : 𝕜) (putCall : String) (expiry : Option String)
  | refitsConsumed

inductive SurfaceFact (model : VolModel) (𝕜 : Type*) where
  | listed (expiries : List String)
  | moved (exp : String) (forward : 𝕜)
  | accepted (exp : String) (side : Side) (fit : Fit 𝕜 model)
  | asked (exp : String) (clock : Clock 𝕜) (strike : 𝕜) (putCall : String)
  | refits (taken : Finset String)

variable {Anchor : Type*} (fn : Elementary 𝕜) (tsi : Tsi 𝕜 Anchor) (beta : 𝕜)

-- What a fit does to a listed expiry: the forward moves, and each side may take its fit.
def fitFacts (m : MultiExpirySABR model 𝕜) (e : FitEvent model 𝕜) : List (SurfaceFact model 𝕜) :=
  match m.surfaces.get e.expiry with
  | none => []
  | some surf =>
    .moved e.expiry e.result.forward ::
      [Side.C, Side.P].filterMap fun side =>
        (taken tsi e.clock m surf e.expiry e.result side).map (.accepted e.expiry side)

-- A lookup of a price, told whether or not it finds one.
def askedFacts (m : MultiExpirySABR model 𝕜) (clock : Clock 𝕜) (strike : 𝕜) (putCall : String) (expiry : Option String) :
    List (SurfaceFact model 𝕜) :=
  match expiry <|> m.frontMonth with
  | none => []
  | some exp => [.asked exp clock strike putCall]

def surfaceStep (m : MultiExpirySABR model 𝕜) : SurfaceEvent model 𝕜 → MultiExpirySABR model 𝕜 × List (SurfaceFact model 𝕜)
  | .expiriesSet expiries => (m.setExpiries beta expiries, [.listed expiries])
  | .fitted e => ((m.applyFit tsi e.clock e.expiry e.result).1, fitFacts tsi m e)
  | .theoAsked clock strike putCall expiry =>
    let facts := askedFacts m clock strike putCall expiry
    match m.getTheo fn clock strike putCall expiry with
    | .error _ => (m, facts)
    | .ok (_, m) => (m, facts)
  | .refitsConsumed => (m.consumeRefitPending.2, [.refits m.consumeRefitPending.1])

-- What is known of an expiry for as long as it stays listed.
section Facts

def whileListed {α : Type*} (exp : String) (tells : SurfaceFact model 𝕜 → Option α) : SurfaceFact model 𝕜 → Option (Option α)
  | .listed expiries => if exp ∈ expiries then none else some none
  | fact => (tells fact).map some

def heldSince {α : Type*} (exp : String) (tells : SurfaceFact model 𝕜 → Option α) (facts : List (SurfaceFact model 𝕜)) : Option α :=
  (Register.latest (whileListed exp tells) facts).join

def tellsFit (exp : String) (side : Side) : SurfaceFact model 𝕜 → Option (Fit 𝕜 model)
  | .accepted e s fit => if e = exp ∧ s = side then some fit else none
  | _ => none

def tellsForward (exp : String) : SurfaceFact model 𝕜 → Option 𝕜
  | .moved e forward => if e = exp then some forward else none
  | _ => none

def fitOf (exp : String) (side : Side) (facts : List (SurfaceFact model 𝕜)) : Option (Fit 𝕜 model) :=
  heldSince exp (tellsFit exp side) facts

def forwardOf (exp : String) (facts : List (SurfaceFact model 𝕜)) : 𝕜 := (heldSince exp (tellsForward exp) facts).getD 0

def sidesOf (exp : String) (facts : List (SurfaceFact model 𝕜)) (side : Side) : SideParams 𝕜 :=
  SideParams.initial.take (fitOf exp side facts)

variable {α : Type*} {exp : String} {tells : SurfaceFact model 𝕜 → Option α} {facts later : List (SurfaceFact model 𝕜)}

end Facts

section Fits

variable {tsi} {m : MultiExpirySABR model 𝕜} {e : FitEvent model 𝕜}

variable {surf : SABRSurface model 𝕜} (found : m.surfaces.get e.expiry = some surf)
include found

end Fits

section Expiries

end Expiries

-- What a fit does to a surface beyond its prices.
section Applied

variable (clock : Clock 𝕜) (m : MultiExpirySABR model 𝕜) (surf : SABRSurface model 𝕜) (exp : String)
  (res : FitResult model 𝕜)

end Applied

-- Only the last fit of a side shows in its parameters.
section Taken

end Taken

end Model

end Corsair.Sabr
