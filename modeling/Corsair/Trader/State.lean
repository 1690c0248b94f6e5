import Corsair.Double
import Corsair.Lib.HashMap

namespace Corsair.Trader

-- messages.rs. Numbers that reached the trader went through a JSON value, which
-- holds no special float.
structure TickMsg where
  strike : ℚ
  expiry : String
  right : String
  bid : Option ℚ
  ask : Option ℚ
  bidSize : Option ℤ
  askSize : Option ℤ
  tsNs : Option ℕ
  deriving DecidableEq

structure VolParams where
  model : String
  a : Option ℚ
  b : Option ℚ
  rho : Option ℚ
  m : Option ℚ
  sigma : Option ℚ
  alpha : Option ℚ
  beta : Option ℚ
  nu : Option ℚ
  deriving DecidableEq

structure VolSurfaceMsg where
  expiry : String
  side : String
  forward : ℚ
  params : VolParams
  deriving DecidableEq

structure RiskStateMsg where
  effectiveDelta : ℚ
  marginPct : ℚ
  deriving DecidableEq

structure OrderAckMsg where
  orderId : Option ℤ
  status : Option String
  deriving DecidableEq

structure PlaceAckMsg where
  orderId : ℤ
  strike : ℚ
  expiry : String
  right : String
  side : String
  price : ℚ
  deriving DecidableEq

-- state.rs
structure OptionKey where
  strike : ℚ
  expiry : String
  right : Char
  deriving DecidableEq

structure OrderKey where
  strike : ℚ
  expiry : String
  right : Char
  side : Char
  deriving DecidableEq

structure OptionState where
  bid : Option ℚ
  ask : Option ℚ
  bidSize : Option ℤ
  askSize : Option ℤ
  deriving DecidableEq

structure VolSurfaceEntry where
  forward : ℚ
  params : VolParams
  deriving DecidableEq

structure OurOrder where
  price : ℚ
  placeMonotonicNs : ℕ
  orderId : Option ℤ
  deriving DecidableEq

structure TraderState where
  options : HashMap OptionKey OptionState
  volSurfaces : HashMap (String × Char) VolSurfaceEntry
  underlyingPrice : ℚ
  ourOrders : HashMap OrderKey OurOrder
  orderidToKey : HashMap ℤ OrderKey
  riskEffectiveDelta : Option ℚ
  riskMarginPct : Option ℚ
  riskStateAgeMonotonicNs : ℕ
  minEdgeTicks : ℤ
  tickSize : ℚ
  deltaCeiling : ℚ
  deltaKill : ℚ
  marginCeilingPct : ℚ
  kills : HashMap String String
  weekendPaused : Bool

def TraderState.new : TraderState where
  options := ∅
  volSurfaces := ∅
  underlyingPrice := 0
  ourOrders := ∅
  orderidToKey := ∅
  riskEffectiveDelta := none
  riskMarginPct := none
  riskStateAgeMonotonicNs := 0
  minEdgeTicks := 2
  tickSize := 1/2000
  deltaCeiling := 3
  deltaKill := 5
  marginCeilingPct := 1/2
  kills := ∅
  weekendPaused := false

-- `chars().next().unwrap_or('C').to_ascii_uppercase()`
def sideChar (text : String) : Char := (text.toList.headD 'C').toUpper

end Corsair.Trader
