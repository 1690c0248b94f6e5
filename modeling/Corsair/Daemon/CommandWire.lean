import Corsair.Daemon.Ipc
import Corsair.Trader.Main

namespace Corsair.Daemon

open BrokerApi Trader Wire

-- The order the broker sends is the one the trader asked for.
structure SameOrder (ymd : NaiveDate → String) (p : PlaceOrder) (req : PlaceOrderReq) : Prop where
  strike : req.contract.strike = some (.finite p.strike)
  expiry : ymd req.contract.expiry = p.expiry
  right : req.contract.right.map (·.asChar) = some (sideChar p.right)
  side : req.side = .buy ↔ p.side = Trader.Side.buy.asStr
  qty : (req.qty : ℤ) = p.qty
  price : req.price = some (.finite p.price)

def Survives (ymd : NaiveDate → String) : Command → Prop
  | .place p => ∃ cmd, decodePlaceOrder p.encode = .ok cmd ∧
      ∀ r clock req, resolvePlace r clock (some cmd) = some req → SameOrder ymd p req
  | .cancel c => ∃ cmd, decodeCancelOrder c.encode = .ok cmd ∧ (cmd.orderId : ℤ) = c.orderId

def CommandsSurvive (ymd : NaiveDate → String) (quoting : Quoting) (s : TraderState)
    (inputs : List (Trader.Turn × TraderInput)) : Prop :=
  ∀ command ∈ Machine.emitted (traderStep quoting) s inputs, Survives ymd command

section Commands

-- The trader names the option by strike, expiry and right, and the broker asks for
-- its instrument id.
theorem place_undecoded (p : PlaceOrder) : decodePlaceOrder p.encode = .error (.missingField "instrument_id") := by
  have typed : required p.encode "type" asStr = .ok "place_order" := rfl
  have unnamed : "instrument_id" ∉ p.encode.map Prod.fst := by
    simp [PlaceOrder.encode]
  unfold decodePlaceOrder
  rw [typed, required_absent unnamed]
  rfl

-- `orderId` here, `order_id` there.
theorem cancel_undecoded (c : CancelOrder) : decodeCancelOrder c.encode = .error (.missingField "order_id") := by
  have typed : required c.encode "type" asStr = .ok "cancel_order" := rfl
  have unnamed : "order_id" ∉ c.encode.map Prod.fst := by
    simp [CancelOrder.encode]
  unfold decodeCancelOrder
  rw [typed, required_absent unnamed]
  rfl

theorem lost_on_wire (ymd : NaiveDate → String) (command : Command) : ¬Survives ymd command := by
  intro survives
  cases command with
  | place p =>
    obtain ⟨cmd, decoded, -⟩ := survives
    rw [place_undecoded] at decoded
    cases decoded
  | cancel c =>
    obtain ⟨cmd, decoded, -⟩ := survives
    rw [cancel_undecoded] at decoded
    cases decoded

end Commands

section AtTheMoney

-- SABR with beta 1 and nu 0 at the money is alpha; a quarter of the root of the
-- time and a volatility of 0.2 price the 6 call at 0.11967.
def atmQuoting : Quoting where
  sviImpliedVol _ _ _ _ _ _ _ _ := none
  sabrImpliedVol _ _ _ alpha _ _ _ := some alpha
  black76Price _ _ _ _ _ _ := 11967/100000
  timeToExpiryYears _ := some (1/16)

def atmSurface : VolSurfaceEntry where
  forward := 6
  params := { model := "sabr", a := none, b := none, rho := some 0, m := none, sigma := none, alpha := some (1/5)
              beta := some 1, nu := some 0 }

def atmTrader : TraderState :=
  { TraderState.new with
    volSurfaces := (∅ : HashMap _ _).set ("20260626", 'C') atmSurface
    underlyingPrice := 6
    riskEffectiveDelta := some 0
    riskMarginPct := some 0
    riskStateAgeMonotonicNs := 1 }

def atmTick : Body F64 :=
  [("type", .str "tick"), ("strike", .float (.finite 6)), ("expiry", .str "20260626"), ("right", .str "C"),
    ("bid", .float (.finite (1/10))), ("ask", .float (.finite (7/50))), ("bid_size", .int 10), ("ask_size", .int 10),
    ("ts_ns", .int 1)]

def quotes : Trader.Turn := ⟨1000000000, 1000000000, true⟩

end AtTheMoney

-- A tick at the money is quoted on both sides, and neither place decodes.
theorem quotes_undecoded :
    (Machine.emitted (traderStep atmQuoting) atmTrader [(quotes, .event atmTick)]).length = 2 ∧
      ¬CommandsSurvive (fun _ => "20260626") atmQuoting atmTrader [(quotes, .event atmTick)] := by
  have two : (Machine.emitted (traderStep atmQuoting) atmTrader [(quotes, .event atmTick)]).length = 2 := by
    decide +kernel
  refine ⟨two, fun survive => ?_⟩
  obtain ⟨command, member⟩ := List.exists_mem_of_length_pos (two ▸ Nat.zero_lt_two)
  exact lost_on_wire _ command (survive command member)

theorem commands_survive_iff (ymd : NaiveDate → String) (quoting : Quoting) (s : TraderState)
    (inputs : List (Trader.Turn × TraderInput)) :
    CommandsSurvive ymd quoting s inputs ↔ Machine.emitted (traderStep quoting) s inputs = [] := by
  constructor
  · intro survive
    rw [List.eq_nil_iff_forall_not_mem]
    intro command member
    exact lost_on_wire ymd command (survive command member)
  · intro silent command member
    rw [silent] at member
    cases member

end Corsair.Daemon
