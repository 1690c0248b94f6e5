import Corsair.Floating

-- decide of quote_decision.py, and the decide_quote of corsair_pricing it delegates to.
namespace Corsair.QuoteDecision

inductive Action where
  | place | skip
  deriving DecidableEq, Repr

inductive Reason where
  | noVolSurface | modelNotInRust | ivInvalid | theoUnavailable | oneSidedOrDark | thinBook
  | forwardDrift | targetNonpositive | wouldCrossAsk | wouldCrossBid | edgeBelowTheo | edgeAboveTheo
  | unknownSide | tteCalcFailed
  deriving DecidableEq, Repr

def Action.text : Action → String
  | .place => "place"
  | .skip => "skip"

def Reason.text : Reason → String
  | .noVolSurface => "no_vol_surface"
  | .modelNotInRust => "model_not_in_rust"
  | .ivInvalid => "iv_invalid"
  | .theoUnavailable => "theo_unavailable"
  | .oneSidedOrDark => "one_sided_or_dark"
  | .thinBook => "thin_book"
  | .forwardDrift => "forward_drift"
  | .targetNonpositive => "target_nonpositive"
  | .wouldCrossAsk => "would_cross_ask"
  | .wouldCrossBid => "would_cross_bid"
  | .edgeBelowTheo => "edge_below_theo"
  | .edgeAboveTheo => "edge_above_theo"
  | .unknownSide => "unknown_side"
  | .tteCalcFailed => "tte_calc_failed"

-- A value of the vol_params dict.
inductive PyValue where
  | number (x : F64)
  | whole (n : ℤ)
  | text (s : String)
  | other
  deriving DecidableEq

abbrev VolParams := List (String × PyValue)

-- What Python raises in the arithmetic of a decision.
inductive PyError where
  | zeroDivision | overflow | value
  deriving DecidableEq, Repr

-- The functions that the decision takes as they are, and the clock.
structure Pricing where
  sabrImpliedVol : (forward strike tte alpha beta rho nu : F64) → F64
  sviImpliedVol : (forward strike tte a b rho m sigma : F64) → F64
  black76Price : (forward strike tte sigma r : F64) → (right : String) → F64
  timeToExpiryYears : String → Option F64
  floatOfText : String → Option F64

structure Decision where
  action : Action
  reason : Reason
  side : String
  strike : F64
  expiry : String
  right : String
  price : Option F64 := none
  theo : Option F64 := none
  iv : Option F64 := none
  drift : Option F64 := none
  fitForward : Option F64 := none
  deriving DecidableEq

structure Input where
  forward : F64
  strike : F64
  expiry : String
  right : String
  side : String
  volParams : Option VolParams
  marketBid : Option F64
  marketAsk : Option F64
  minEdgeTicks : ℤ
  tickSize : F64
  tte : Option F64 := none
  marketBidSize : Option ℤ := none
  marketAskSize : Option ℤ := none
  minBboSize : ℤ := 1
  fitForward : Option F64 := none
  currentForward : Option F64 := none
  maxForwardDriftTicks : ℤ := 200
  preIv : Option F64 := none
  preTheo : Option F64 := none

-- An int becomes a float, or raises.
def floatOfInt (n : ℤ) : Option F64 :=
  if (F64.ofRat n).isFinite then some (F64.ofRat n) else none

-- PyO3's extract::<f64>, and the float of Python, which reads a text too.
def PyValue.extract : PyValue → Option F64
  | .number x => some x
  | .whole n => floatOfInt n
  | .text _ | .other => none

def PyValue.float (pricing : Pricing) : PyValue → Option F64
  | .number x => some x
  | .whole n => floatOfInt n
  | .text s => pricing.floatOfText s
  | .other => none

section Rust

variable (pricing : Pricing)

def extracted (params : VolParams) (key : String) : Option F64 := do
  let value ← params.lookup key
  value.extract

def live (price : Option F64) : Bool := (price.map F64.positive).getD false

def quantized (target tickSize : F64) : F64 := (target / tickSize).round * tickSize

def rustSide (side : String) (theo edge tickSize : F64) (marketBid marketAsk : Option F64) :
    Action × Reason × Option F64 :=
  if side = "BUY" then
    let target := theo - edge
    if target ≤ 0 then (.skip, .targetNonpositive, none)
    else match marketAsk with
      | some ask =>
        if ask.positive ∧ ask ≤ target then (.skip, .wouldCrossAsk, some target)
        else (.place, .edgeBelowTheo, some (quantized target tickSize))
      | none => (.place, .edgeBelowTheo, some (quantized target tickSize))
  else if side = "SELL" then
    let target := theo + edge
    match marketBid with
      | some bid =>
        if bid.positive ∧ target ≤ bid then (.skip, .wouldCrossBid, some target)
        else (.place, .edgeAboveTheo, some (quantized target tickSize))
      | none => (.place, .edgeAboveTheo, some (quantized target tickSize))
  else (.skip, .unknownSide, none)

-- decide_quote from the vol on.
def volQuote (forward strike : F64) (expiry right side : String) (marketBid marketAsk : Option F64)
    (minEdgeTicks : ℤ) (tickSize tte iv : F64) : Decision :=
  let skip (reason : Reason) : Decision := { action := .skip, reason, side, strike, expiry, right }
  if iv ≤ 0 ∨ iv = .nan then skip .ivInvalid
  else
    let theo := pricing.black76Price forward strike tte iv 0 right
    if theo ≤ 0 then skip .theoUnavailable
    else if ¬ live marketBid ∨ ¬ live marketAsk then
      { skip .oneSidedOrDark with theo := some theo, iv := some iv }
    else
      let result := rustSide side theo (F64.ofRat minEdgeTicks * tickSize) tickSize marketBid marketAsk
      { action := result.1, reason := result.2.1, side, strike, expiry, right, price := result.2.2,
        theo := some theo, iv := some iv }

-- `none` models an error that PyO3 raises: a key that is missing or no number.
def decideQuote (forward strike : F64) (expiry right side : String) (volParams : Option VolParams)
    (marketBid marketAsk : Option F64) (minEdgeTicks : ℤ) (tickSize tte : F64) : Option Decision :=
  let skip (reason : Reason) : Decision := { action := .skip, reason, side, strike, expiry, right }
  match volParams with
  | none => some (skip .noVolSurface)
  | some params =>
    let model := match params.lookup "model" with
      | some (.text model) => model
      | _ => ""
    if model = "sabr" then do
      let alpha ← extracted params "alpha"
      let beta ← extracted params "beta"
      let rho ← extracted params "rho"
      let nu ← extracted params "nu"
      some (volQuote pricing forward strike expiry right side marketBid marketAsk minEdgeTicks tickSize tte
        (pricing.sabrImpliedVol forward strike tte alpha beta rho nu))
    else if model = "svi" then do
      let a ← extracted params "a"
      let b ← extracted params "b"
      let rho ← extracted params "rho"
      let m ← extracted params "m"
      let sigma ← extracted params "sigma"
      some (volQuote pricing forward strike expiry right side marketBid marketAsk minEdgeTicks tickSize tte
        (pricing.sviImpliedVol forward strike tte a b rho m sigma))
    else some (skip .modelNotInRust)

end Rust

section Python

variable (pricing : Pricing)

def floated (params : VolParams) (key : String) : Option F64 := do
  let value ← params.lookup key
  value.float pricing

def computeTheo (forward strike tte : F64) (right : String) (params : VolParams) : Option (F64 × F64) := do
  if forward ≤ 0 ∨ strike ≤ 0 ∨ tte ≤ 0 then none
  else
    let model := params.lookup "model"
    let iv ←
      if model = some (.text "sabr") then do
        let alpha ← floated pricing params "alpha"
        let beta ← floated pricing params "beta"
        let rho ← floated pricing params "rho"
        let nu ← floated pricing params "nu"
        some (pricing.sabrImpliedVol forward strike tte alpha beta rho nu)
      else if model = some (.text "svi") then do
        let a ← floated pricing params "a"
        let b ← floated pricing params "b"
        let rho ← floated pricing params "rho"
        let m ← floated pricing params "m"
        let sigma ← floated pricing params "sigma"
        some (pricing.sviImpliedVol forward strike tte a b rho m sigma)
      else none
    if iv ≤ 0 ∨ iv = .nan then none
    else
      let theo := pricing.black76Price forward strike tte iv 0 right
      if theo ≤ 0 then none else some (iv, theo)

-- int * float, float / float and round of Python.
def pyTimes (n : ℤ) (x : F64) : Except PyError F64 :=
  match floatOfInt n with
  | some m => .ok (m * x)
  | none => .error .overflow

def pyDivide (x y : F64) : Except PyError F64 :=
  if y.isZero then .error .zeroDivision else .ok (x / y)

def pyRound : F64 → Except PyError ℤ
  | .finite x => .ok (halfEven x)
  | .infinite _ => .error .overflow
  | .nan => .error .value

def pyQuantized (target tickSize : F64) : Except PyError F64 := do
  let ticks ← pyDivide target tickSize
  let whole ← pyRound ticks
  pyTimes whole tickSize

def thinBook (input : Input) : Bool :=
  match input.marketBidSize, input.marketAskSize with
  | some bidSize, some askSize => decide (bidSize < input.minBboSize) || decide (askSize < input.minBboSize)
  | _, _ => false

def pySide (side : String) (theo edge tickSize : F64) (marketBid marketAsk : Option F64) :
    Except PyError (Action × Reason × Option F64) :=
  if side = "BUY" then
    let target := theo - edge
    if target ≤ 0 then .ok (.skip, .targetNonpositive, none)
    else if ∃ ask ∈ marketAsk, ask.positive ∧ ask ≤ target then .ok (.skip, .wouldCrossAsk, some target)
    else do
      let price ← pyQuantized target tickSize
      .ok (.place, .edgeBelowTheo, some price)
  else if side = "SELL" then
    let target := theo + edge
    if ∃ bid ∈ marketBid, bid.positive ∧ target ≤ bid then .ok (.skip, .wouldCrossBid, some target)
    else do
      let price ← pyQuantized target tickSize
      .ok (.place, .edgeAboveTheo, some price)
  else .ok (.skip, .unknownSide, none)

def precomputed (input : Input) : Option (F64 × F64) := do
  let iv ← input.preIv
  let theo ← input.preTheo
  some (iv, theo)

def pyTheo (input : Input) (tte : F64) (params : VolParams) : Option (F64 × F64) :=
  (precomputed input).or (computeTheo pricing input.forward input.strike tte input.right params)

-- The drift that is too great, with the forward of the fit.
def forwardDrift (input : Input) : Except PyError (Option (F64 × F64)) :=
  match input.fitForward, input.currentForward with
  | some fit, some current => do
    let drift := (current - fit).abs
    let maxDrift ← pyTimes input.maxForwardDriftTicks input.tickSize
    .ok (if maxDrift < drift then some (drift, fit) else none)
  | _, _ => .ok none

def pyDecide (input : Input) (tte : F64) : Except PyError Decision :=
  let skip (reason : Reason) : Decision :=
    { action := .skip, reason, side := input.side, strike := input.strike, expiry := input.expiry,
      right := input.right }
  match input.volParams with
  | none | some [] => .ok (skip .noVolSurface)
  | some params =>
    match pyTheo pricing input tte params with
    | none => .ok (skip .theoUnavailable)
    | some (iv, theo) =>
      let priced (reason : Reason) : Decision := { skip reason with theo := some theo, iv := some iv }
      if ¬ live input.marketBid ∨ ¬ live input.marketAsk then .ok (priced .oneSidedOrDark)
      else if thinBook input then .ok (priced .thinBook)
      else do
        match ← forwardDrift input with
        | some (drift, fit) => .ok { priced .forwardDrift with drift := some drift, fitForward := some fit }
        | none =>
          let edge ← pyTimes input.minEdgeTicks input.tickSize
          let result ← pySide input.side theo edge input.tickSize input.marketBid input.marketAsk
          .ok { priced result.2.1 with action := result.1, price := result.2.2 }

end Python

section Decide

variable (pricing : Pricing)

-- The call of decide_quote, whose edge is an i32.
def delegated (input : Input) (tte : F64) : Option Decision :=
  if (input.volParams.getD []).lookup "model" = some (.text "sabr") ∧
      -2^31 ≤ input.minEdgeTicks ∧ input.minEdgeTicks < 2^31 then
    decideQuote pricing input.forward input.strike input.expiry input.right input.side input.volParams
      input.marketBid input.marketAsk input.minEdgeTicks input.tickSize tte
  else none

def yearsToExpiry (input : Input) : Option F64 := input.tte.or (pricing.timeToExpiryYears input.expiry)

def decide (useRust : Bool) (input : Input) : Except PyError Decision :=
  match yearsToExpiry pricing input with
  | none => .ok { action := .skip, reason := .tteCalcFailed, side := input.side, strike := input.strike,
                  expiry := input.expiry, right := input.right }
  | some tte =>
    match if useRust then delegated pricing input tte else none with
    | some d => if d.reason ≠ .modelNotInRust then .ok d else pyDecide pricing input tte
    | none => pyDecide pricing input tte

def Decision.verdict (d : Decision) : Action × Reason × Option F64 := (d.action, d.reason, d.price)

end Decide

end Corsair.QuoteDecision
