import Corsair.Book.Portfolio

namespace Corsair.MarketData

open BrokerApi Book

-- option_state.rs
structure OptionTick where
  instrumentId : Option InstrumentId
  strike : ℚ
  expiry : NaiveDate
  right : Right
  bid : ℚ
  ask : ℚ
  bidSize : ℕ
  askSize : ℕ
  last : ℚ
  iv : ℚ
  lastUpdatedNs : ℕ
  deriving DecidableEq

namespace OptionTick

def new (strike : ℚ) (expiry : NaiveDate) (right : Right) : OptionTick where
  instrumentId := none
  strike
  expiry
  right
  bid := 0
  ask := 0
  bidSize := 0
  askSize := 0
  last := 0
  iv := 0
  lastUpdatedNs := 0

def mid (t : OptionTick) : Option ℚ :=
  if 0 < t.bid ∧ 0 < t.ask ∧ t.bid < t.ask then some ((t.bid + t.ask) / 2) else none

def currentPrice (t : OptionTick) : ℚ := t.mid.getD (if 0 < t.last then t.last else 0)

end OptionTick

-- state.rs
structure OptionKey where
  product : String
  strikeKey : ℤ
  expiry : NaiveDate
  right : Right
  deriving DecidableEq

def optionKey (product : String) (strike : ℚ) (expiry : NaiveDate) (right : Right) : OptionKey :=
  ⟨product, strikeKey strike, expiry, right⟩

structure MarketDataState where
  underlying : HashMap String ℚ
  options : HashMap OptionKey OptionTick
  byInstrument : HashMap InstrumentId OptionKey
  underlyingInstruments : HashMap InstrumentId String

namespace MarketDataState

def new : MarketDataState := ⟨∅, ∅, ∅, ∅⟩

-- The instrument id is written on the first registration of a key only.
def registerOption (s : MarketDataState) (product : String) (strike : ℚ) (expiry : NaiveDate) (right : Right)
    (instrumentId : InstrumentId) : MarketDataState :=
  let k := optionKey product strike expiry right
  { s with
    options := match s.options.get k with
      | some _ => s.options
      | none => s.options.set k { OptionTick.new strike expiry right with instrumentId := some instrumentId }
    byInstrument := s.byInstrument.set instrumentId k }

def registerUnderlying (s : MarketDataState) (product : String) (instrumentId : InstrumentId) : MarketDataState :=
  { s with underlyingInstruments := s.underlyingInstruments.set instrumentId product }

def underlyingPrice (s : MarketDataState) (product : String) : Option ℚ :=
  (s.underlying.get product).filter (0 < ·)

def setUnderlying (s : MarketDataState) (product : String) (price : ℚ) : MarketDataState :=
  if 0 < price then { s with underlying := s.underlying.set product price } else s

def updateOption (s : MarketDataState) (k : OptionKey) (f : OptionTick → OptionTick) : MarketDataState :=
  { s with options := s.options.modify k f }

def updateUnderlying (s : MarketDataState) (iid : InstrumentId) (price : ℚ) : MarketDataState :=
  match s.underlyingInstruments.get iid with
  | some product => s.setUnderlying product price
  | none => s

def updateBid (s : MarketDataState) (iid : InstrumentId) (price : ℚ) (size tsNs : ℕ) : MarketDataState :=
  match s.byInstrument.get iid with
  | some k => s.updateOption k fun t =>
    { t with bid := if 0 < price then price else t.bid, bidSize := size, lastUpdatedNs := tsNs }
  | none => s.updateUnderlying iid price

-- An ask of an underlying is dropped where its bid and last are not.
def updateAsk (s : MarketDataState) (iid : InstrumentId) (price : ℚ) (size tsNs : ℕ) : MarketDataState :=
  match s.byInstrument.get iid with
  | some k => s.updateOption k fun t =>
    { t with ask := if 0 < price then price else t.ask, askSize := size, lastUpdatedNs := tsNs }
  | none => s

def updateLast (s : MarketDataState) (iid : InstrumentId) (price : ℚ) (tsNs : ℕ) : MarketDataState :=
  match s.byInstrument.get iid with
  | some k => s.updateOption k fun t =>
    { t with last := if 0 < price then price else t.last, lastUpdatedNs := tsNs }
  | none => s.updateUnderlying iid price

def option (s : MarketDataState) (product : String) (strike : ℚ) (expiry : NaiveDate) (right : Right) :
    Option OptionTick :=
  s.options.get (optionKey product strike expiry right)

def optionsForProduct (s : MarketDataState) (product : String) : List OptionTick :=
  (s.options.items.filter (·.1.product = product)).map (·.2)

-- view.rs
def view (s : MarketDataState) : MarketView where
  underlyingPrice := s.underlyingPrice
  ivFor product strike expiry right := ((s.option product strike expiry right).map (·.iv)).filter (0 < ·)
  currentPrice product strike expiry right :=
    ((s.option product strike expiry right).map (·.currentPrice)).filter (0 < ·)

end MarketDataState

end Corsair.MarketData
