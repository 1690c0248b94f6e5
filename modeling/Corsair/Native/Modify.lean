import Corsair.Digits
import Corsair.Native.OpenOrders
import Corsair.Native.TemplateCache

namespace Corsair.Native

open BrokerApi Framing

structure ModifyOrderReq where
  price : Option F64
  qty : Option ℕ
  gtdUntilUtc : Option UtcTime

-- `as i32` of a u64 wraps.
def wrapI32 (n : ℕ) : ℤ := (n + 2^31) % 2^32 - 2^31

section Modify

variable (formats : Formats) (account : String)

-- The request that modify_order puts together for an order of its cache.
def placeholder (existing : OpenOrder) (req : ModifyOrderReq) : PlaceOrderReq where
  contract := existing.contract
  side := existing.side
  qty := req.qty.getD existing.qty
  orderType := existing.orderType
  price := req.price.or existing.price
  tif := existing.tif
  gtdUntilUtc := req.gtdUntilUtc.or existing.gtdUntilUtc
  clientOrderRef := existing.clientOrderRef
  account := some account

-- The frame that goes to the socket.
def BrokerState.modifyOrder (s : BrokerState) (id : OrderId) (req : ModifyOrderReq) : Except BrokerError Bytes := do
  let existing ← match s.openOrders.get (wrapI32 id) with
    | some existing => .ok existing
    | none => .error (.internal s!"modify_order: orderId={id} not in open cache")
  let params ← buildPlaceParams formats (placeholder account existing req) account
  return placeOrder formats (wrapI32 id) (placeOrderContractRequest formats existing.contract) params

end Modify

section Texts

theorem utf8_inj {left right : String} (same : utf8 left = utf8 right) : left = right := by
  rw [← lossy_utf8 left, same, lossy_utf8]

theorem payload_cons (field : String) (rest : Frame) :
    payloadOf (field :: rest) = utf8 field ++ 0 :: payloadOf rest := by
  simp [payloadOf]

theorem payload_same {field : String} {left right : Frame} :
    payloadOf (field :: left) = payloadOf (field :: right) ↔ payloadOf left = payloadOf right := by
  simp [payload_cons]

theorem payload_head {one other : String} {rest : Frame} :
    payloadOf (one :: rest) = payloadOf (other :: rest) ↔ one = other := by
  rw [payload_cons, payload_cons, List.append_left_inj]
  constructor
  · exact utf8_inj
  · rintro rfl
    rfl

-- A field that holds no NUL ends at the first one.
theorem payload_plain {one other : String} {left right : Frame} (plain : 0 ∉ utf8 one) (bare : 0 ∉ utf8 other) :
    payloadOf (one :: left) = payloadOf (other :: right) ↔ one = other ∧ payloadOf left = payloadOf right := by
  rw [payload_cons, payload_cons]
  constructor
  · intro same
    have pieces := congrArg (List.splitOn 0) same
    rw [List.splitOn_append_cons_self_of_not_mem plain, List.splitOn_append_cons_self_of_not_mem bare] at pieces
    have first := utf8_inj (List.cons.inj pieces).1
    subst first
    exact ⟨rfl, (List.cons.inj (List.append_cancel_left same)).2⟩
  · rintro ⟨rfl, same⟩
    rw [same]

end Texts

section Frames

variable {formats : Formats}

-- What the crates write of a number or a date has no NUL in it.
structure PlainTexts (formats : Formats) : Prop where
  float : ∀ x, 0 ∉ utf8 (encodeF64 formats x)
  date : ∀ date format, 0 ∉ utf8 (formats.date date format)

-- Frames that differ in the date and the strike of the contract, the stop price and the account.
theorem frame_same_iff (plain : PlainTexts formats) (orderId : ℤ) (c : ContractRequest) (p : PlaceOrderParams)
    (date other : NaiveDate) (format : String) (dated : c.lastTradeDate = formats.date date format) (strike aux : F64)
    (account : String) :
    placeOrder formats orderId { c with lastTradeDate := formats.date other format, strike := strike }
        { p with auxPrice := aux, account := account } = placeOrder formats orderId c p ↔
      formats.date other format = formats.date date format ∧ encodeF64 formats strike = encodeF64 formats c.strike ∧
        encodeF64 formats aux = encodeF64 formats p.auxPrice ∧ account = p.account := by
  unfold placeOrder encodeFields
  rw [prefixed_inj]
  simp only [payload_same, dated, payload_plain (plain.date other format) (plain.date date format),
    payload_plain (plain.float strike) (plain.float c.strike), payload_plain (plain.float aux) (plain.float p.auxPrice),
    payload_head]

end Frames

section Numbers

theorem wrapI32_wrapU64 {id : ℤ} (lower : -2 ^ 31 ≤ id) (upper : id < 2 ^ 31) : wrapI32 (wrapU64 id) = id := by
  unfold wrapI32 wrapU64
  omega

theorem wrapI64_wrapU64 (n : ℕ) : wrapI64 (wrapU64 (wrapI64 n)) = wrapI64 n := by
  unfold wrapI64 wrapU64
  omega

theorem truncate_int (n : ℤ) : truncate n = n := by
  simp [truncate]

theorem qty_kept {qty : ℕ} (small : qty < 2 ^ 32) : (F64.finite qty).asU32 = qty := by
  have whole : truncate (qty : ℚ) = qty := by exact_mod_cast truncate_int qty
  simp only [F64.asU32, F64.saturating, whole, saturate]
  omega

theorem truncate_small {q : ℚ} (small : |q| < 2 ^ 52) : |truncate q| < 2 ^ 52 := by
  have positive : (0 : ℚ) < q.den := Nat.cast_pos.mpr q.den_pos
  have scaled : |(q.num : ℚ)| < 2 ^ 52 * q.den := by
    rw [← Rat.mul_den_eq_num q, abs_mul, abs_of_pos positive]
    exact mul_lt_mul_of_pos_right small positive
  have bound : q.num.natAbs < 2 ^ 52 * q.den := by
    rw [← Int.cast_abs, Int.abs_eq_natAbs] at scaled
    exact_mod_cast scaled
  have divided := Nat.div_lt_of_lt_mul (show q.num.natAbs < q.den * 2 ^ 52 by omega)
  have magnitude : (truncate q).natAbs = q.num.natAbs / q.den := by
    rw [truncate, Int.natAbs_tdiv, Int.natAbs_natCast]
    rfl
  rw [Int.abs_eq_natAbs, magnitude]
  exact_mod_cast divided

theorem asI64_small {n : ℤ} (small : |n| < 2 ^ 53) : asI64 (F64.ofRat n) = n := by
  rw [F64.ofRat_int small]
  have bounds := abs_lt.mp small
  simp only [asI64, F64.saturating, truncate_int, saturate]
  omega

-- What the multiplier's text says is what was written, for every double.
theorem multiplier_kept {m : F64} (double : m.Stored) : asI64 (F64.ofRat (asI64 m)) = asI64 m := by
  cases m with
  | nan => exact asI64_small (by decide)
  | infinite negative => cases negative <;> decide +kernel
  | finite q =>
    by_cases whole : ∃ n : ℤ, q = n
    · obtain ⟨n, rfl⟩ := whole
      have cut : asI64 (.finite n) = max (-2 ^ 63) (min (2 ^ 63 - 1) n) := by
        simp only [asI64, F64.saturating, truncate_int, saturate]
      rcases lt_or_ge n (-2 ^ 63) with below | fits
      · rw [cut, max_eq_left (by omega)]
        decide +kernel
      · rcases le_or_gt n (2 ^ 63 - 1) with within | above
        · rw [cut, min_eq_right within, max_eq_right fits, F64.stored_exact double, cut, min_eq_right within,
            max_eq_right fits]
        · rw [cut, min_eq_left above.le, max_eq_right (by norm_num)]
          decide +kernel
    · have small := truncate_small (fraction_small (double q rfl).1 (not_exists.mp whole))
      have bounds := abs_lt.mp small
      have kept : asI64 (.finite q) = truncate q := by
        simp only [asI64, F64.saturating, saturate]
        omega
      rw [kept]
      exact asI64_small (by omega)

end Numbers

def SessionEvent.message : SessionEvent → Option InboundMsg
  | .dispatched _ _ fields => (parseInbound fields).toOption
  | _ => none

def sessionMessages (events : List SessionEvent) : List InboundMsg := events.filterMap SessionEvent.message

-- The last OpenOrder message of an order.
structure LastOpenOrder (id : ℤ) (o : OpenOrderMsg) (messages : List InboundMsg) : Prop where
  last : ∃ past rest, messages = past ++ .openOrder o :: rest ∧ ∀ other, .openOrder other ∈ rest → other.orderId ≠ id

-- An OpenOrder message that gives an order back as it was sent.
structure Repeats (c : ContractRequest) (p : PlaceOrderParams) (id : ℤ) (o : OpenOrderMsg) : Prop where
  orderId : o.orderId = id
  conId : o.contract.conId = c.conId
  symbol : o.contract.symbol = c.symbol
  secType : o.contract.secType = c.secType
  lastTradeDate : o.contract.lastTradeDate = c.lastTradeDate
  strike : o.contract.strike = c.strike
  right : o.contract.right = c.right
  multiplier : o.contract.multiplier = c.multiplier
  exchange : o.contract.exchange = c.exchange
  currency : o.contract.currency = c.currency
  localSymbol : o.contract.localSymbol = c.localSymbol
  action : o.action = p.action
  totalQuantity : o.totalQuantity = p.totalQuantity
  orderType : o.orderType = p.orderType
  lmtPrice : o.lmtPrice = p.lmtPrice
  tif : o.tif = p.tif
  account : o.account = p.account
  orderRef : o.orderRef = p.orderRef

section Echo

variable {chrono : Chrono} {formats : Formats} {account : String}

theorem sessionStep_openOrders (s : Session) (event : SessionEvent) :
    (sessionStep chrono formats account s event).1.broker.openOrders =
      event.message.elim s.broker.openOrders (cacheWrite chrono · s.broker.openOrders) := by
  cases event with
  | dispatched now publisher fields =>
    simp only [sessionStep, dispatch, SessionEvent.message]
    cases parsed : parseInbound fields with
    | error fault => rfl
    | ok msg => exact route_openOrders chrono publisher now s.broker msg
  | placeOrder req sends =>
    simp only [sessionStep, Session.placeOrder, SessionEvent.message]
    split
    · rfl
    split
    · rfl
    split
    · rfl
    · cases sends <;> rfl
  | _ => rfl

-- The cache of a session shows each order as its last OpenOrder made it, with the reports since.
theorem session_cached (events : List SessionEvent) (id : ℤ) :
    (sessionAfter chrono formats account events).broker.openOrders.get id =
      ((sessionMessages events).foldl (echoed chrono id) none).map
        (written ((sessionMessages events).foldl (renewed chrono id) ⟨.pendingSubmit, 0⟩)) := by
  refine Machine.follows (fun past (s : Session) => s.broker.openOrders.get id =
    ((sessionMessages past).foldl (echoed chrono id) none).map
      (written ((sessionMessages past).foldl (renewed chrono id) ⟨.pendingSubmit, 0⟩))) ?_ rfl events
  intro past s event held
  rw [sessionStep_openOrders]
  simp only [sessionMessages, List.filterMap_append, List.foldl_append] at held ⊢
  exact cached_event held

theorem echoed_last {id : ℤ} {o : OpenOrderMsg} {messages : List InboundMsg} (last : LastOpenOrder id o messages)
    (own : o.orderId = id) {order : OpenOrder} (built : nativeToOpenOrder chrono o = some order) :
    messages.foldl (echoed chrono id) none = some order := by
  obtain ⟨past, rest, rfl, others⟩ := last.last
  rw [List.foldl_append, List.foldl_cons]
  have start : echoed chrono id (past.foldl (echoed chrono id) none) (.openOrder o) = some order := by
    rw [echoed, if_pos own, built]
    rfl
  rw [start]
  clear start last
  induction rest with
  | nil => rfl
  | cons msg rest next =>
    rw [List.foldl_cons]
    have kept : echoed chrono id (some order) msg = some order := by
      cases msg with
      | openOrder other =>
        rw [echoed, if_neg (others other List.mem_cons_self)]
      | _ => rfl
    rw [kept]
    exact next fun other member => others other (List.mem_cons_of_mem _ member)

end Echo

-- An order with what a modify asks for, and nothing else, replaced.
def changed (req : PlaceOrderReq) (m : ModifyOrderReq) : PlaceOrderReq :=
  { req with
    qty := m.qty.getD req.qty
    price := m.price.or req.price
    gtdUntilUtc := m.gtdUntilUtc.or req.gtdUntilUtc }

def stopPrice : BrokerApi.OrderType → F64
  | .stopLimit stop => stop
  | _ => .finite 0

-- The type as the cache has it, without its stop price.
def unstopped : BrokerApi.OrderType → BrokerApi.OrderType
  | .stopLimit _ => .stopLimit (.finite 0)
  | other => other

def positivePrice (price : F64) : Bool := price.isFinite && price.positive

def cachedStrike (strike : Option F64) : F64 :=
  if (strike.getD (.finite 0)).positive then strike.getD (.finite 0) else .finite 0

section Prices

def typeText : BrokerApi.OrderType → String
  | .limit => "LMT"
  | .market => "MKT"
  | .stopLimit _ => "STP LMT"

variable {req : PlaceOrderReq}

theorem market_prices (market : req.orderType = .market) : orderPrices req = .ok ("MKT", .finite 0, .finite 0) := by
  simp only [orderPrices, market]

theorem limited_prices {price : F64} (limited : req.orderType ≠ .market) (given : req.price = some price) :
    orderPrices req = .ok (typeText req.orderType, price, stopPrice req.orderType) := by
  cases kind : req.orderType with
  | market => exact absurd kind limited
  | limit => simp only [orderPrices, kind, given, typeText, stopPrice]
  | stopLimit stop => simp only [orderPrices, kind, given, typeText, stopPrice]

theorem unpriced (limited : req.orderType ≠ .market) (missing : req.price = none) (prices : String × F64 × F64) :
    orderPrices req ≠ .ok prices := by
  cases kind : req.orderType with
  | market => exact absurd kind limited
  | limit => simp [orderPrices, kind, missing]
  | stopLimit stop => simp [orderPrices, kind, missing]

theorem typeText_parsed (kind : BrokerApi.OrderType) : parseOrderType (typeText kind) (.finite 0) = unstopped kind := by
  cases kind <;> rfl

@[simp] theorem unstopped_text (kind : BrokerApi.OrderType) : typeText (unstopped kind) = typeText kind := by
  cases kind <;> rfl

@[simp] theorem unstopped_stop (kind : BrokerApi.OrderType) : stopPrice (unstopped kind) = .finite 0 := by
  cases kind <;> rfl

theorem unstopped_limited {kind : BrokerApi.OrderType} (limited : kind ≠ .market) : unstopped kind ≠ .market := by
  cases kind with
  | market => exact absurd rfl limited
  | limit => exact limited
  | stopLimit stop => intro same; cases same

theorem or_filter {α : Type*} {one other : Option α} {keep : α → Bool} {value : α}
    (found : one.or (other.filter keep) = some value) : one.or other = some value := by
  cases one with
  | some own => exact found
  | none =>
    rw [Option.none_or] at found ⊢
    exact (Option.filter_eq_some_iff.mp found).1

end Prices

-- A date as the echo gives it back.
def reread (chrono : Chrono) (formats : Formats) (date : NaiveDate) : NaiveDate :=
  (chrono.parseDate (formats.date date "%Y%m%d") "%Y%m%d").getD .epoch

-- A cached order as it stands for the request that was placed.
structure Relisted (formats : Formats) (back : NaiveDate) (req : PlaceOrderReq) (order : OpenOrder) : Prop where
  contract : placeOrderContractRequest formats order.contract =
    { placeOrderContractRequest formats req.contract with
      lastTradeDate := formats.date back "%Y%m%d"
      strike := cachedStrike req.contract.strike }
  side : order.side = req.side
  qty : order.qty = req.qty
  orderType : order.orderType = unstopped req.orderType
  price : req.orderType ≠ .market → order.price = req.price.filter positivePrice
  tif : order.tif = req.tif
  gtdUntilUtc : order.gtdUntilUtc = none
  clientOrderRef : order.clientOrderRef = req.clientOrderRef

section Relist

variable {chrono : Chrono} {formats : Formats} {account : String}

-- What build_place_params makes of a request it takes.
structure BuiltFrom (req : PlaceOrderReq) (account : String) (prices : String × F64 × F64) (till : String)
    (params : PlaceOrderParams) : Prop where
  side : parseSide params.action = some req.side
  quantity : params.totalQuantity = .finite req.qty
  orderType : params.orderType = prices.1
  lmtPrice : params.lmtPrice = prices.2.1
  auxPrice : params.auxPrice = prices.2.2
  tif : parseTif params.tif = req.tif
  account : params.account = req.account.getD account
  orderRef : params.orderRef = req.clientOrderRef

theorem build_parts {req : PlaceOrderReq} {params : PlaceOrderParams}
    (built : buildPlaceParams formats req account = .ok params) :
    ∃ prices till, orderPrices req = .ok prices ∧ goodTill formats req = .ok till ∧
      BuiltFrom req account prices till params := by
  unfold buildPlaceParams at built
  cases prices : orderPrices req with
  | error e =>
    rw [prices] at built
    cases built
  | ok triple =>
    cases till : goodTill formats req with
    | error e =>
      rw [prices, till] at built
      cases built
    | ok text =>
      rw [prices, till] at built
      cases built
      refine ⟨triple, text, rfl, rfl, ?_, rfl, rfl, rfl, rfl, ?_, rfl, rfl⟩
      · cases req.side <;> rfl
      · cases req.tif <;> rfl

theorem prices_parts {req : PlaceOrderReq} {prices : String × F64 × F64} (priced : orderPrices req = .ok prices) :
    parseOrderType prices.1 (.finite 0) = unstopped req.orderType ∧
      (req.orderType ≠ .market → req.price = some prices.2.1) ∧ prices.2.2 = stopPrice req.orderType := by
  by_cases market : req.orderType = .market
  · cases priced.symm.trans (market_prices market)
    rw [market]
    exact ⟨rfl, fun limited => absurd rfl limited, rfl⟩
  · cases given : req.price with
    | none => exact absurd priced (unpriced market given prices)
    | some price =>
      cases priced.symm.trans (limited_prices market given)
      exact ⟨typeText_parsed req.orderType, fun _ => rfl, rfl⟩

theorem contract_relisted {c : Contract} {d : ContractDecoded} (back : NaiveDate) (double : c.multiplier.Stored)
    (conId : d.conId = (placeOrderContractRequest formats c).conId)
    (symbol : d.symbol = c.symbol) (secType : d.secType = (placeOrderContractRequest formats c).secType)
    (strike : d.strike = c.strike.getD (.finite 0)) (right : d.right = (placeOrderContractRequest formats c).right)
    (multiplier : d.multiplier = (placeOrderContractRequest formats c).multiplier)
    (exchange : d.exchange = exchangeToStr c.exchange) (currency : d.currency = currencyToStr c.currency)
    (localSymbol : d.localSymbol = c.localSymbol) :
    ∃ contract, decodedContract d back = some contract ∧
      placeOrderContractRequest formats contract =
        { placeOrderContractRequest formats c with
          lastTradeDate := formats.date back "%Y%m%d"
          strike := cachedStrike c.strike } := by
  have kind : parseKind d.secType = some c.kind := by
    rw [secType]
    cases kind : c.kind <;> simp [placeOrderContractRequest, kind, parseKind]
  have sides : parseRight d.right = c.right := by
    rw [right]
    rcases given : c.right with _ | _ | _ <;> simp [placeOrderContractRequest, given, parseRight]
  have venue : exchangeToStr (parseExchange d.exchange) = exchangeToStr c.exchange := by
    rw [exchange]
    cases c.exchange <;> rfl
  have money : parseCurrency d.currency = c.currency := by
    rw [currency]
    cases c.currency <;> rfl
  have size : asI64 (parseOrZero d.multiplier) = asI64 c.multiplier := by
    rw [multiplier]
    change asI64 ((parseFloat (toString (asI64 c.multiplier))).getD _) = _
    rw [parseFloat_int, Option.getD_some, multiplier_kept double]
  have price : (if d.strike.positive = true then some d.strike else none).getD (.finite 0) = cachedStrike c.strike := by
    rw [strike, cachedStrike]
    split <;> rfl
  refine ⟨_, by rw [decodedContract, kind]; rfl, ?_⟩
  simp only [placeOrderContractRequest] at conId secType right multiplier ⊢
  simp only [conId, wrapI64_wrapU64, symbol, sides, size, venue, money, localSymbol, price]

theorem relisted {req : PlaceOrderReq} {params : PlaceOrderParams} {prices : String × F64 × F64} {till : String}
    {id : ℤ} {o : OpenOrderMsg} (priced : orderPrices req = .ok prices) (built : BuiltFrom req account prices till params)
    (sized : req.qty < 2 ^ 32) (double : req.contract.multiplier.Stored)
    (repeats : Repeats (placeOrderContractRequest formats req.contract) params id o) :
    ∃ order, nativeToOpenOrder chrono o = some order ∧
      Relisted formats (reread chrono formats req.contract.expiry) req order := by
  obtain ⟨contract, decoded, same⟩ := contract_relisted
    (reread chrono formats req.contract.expiry) double repeats.conId
    repeats.symbol repeats.secType repeats.strike repeats.right repeats.multiplier repeats.exchange repeats.currency
    repeats.localSymbol
  have date : o.contract.lastTradeDate = formats.date req.contract.expiry "%Y%m%d" := repeats.lastTradeDate
  have side : parseSide o.action = some req.side := repeats.action ▸ built.side
  rw [reread] at decoded
  refine ⟨_, by rw [nativeToOpenOrder, date, decoded, side]; rfl, ?_⟩
  refine ⟨same, rfl, ?_, ?_, ?_, ?_, rfl, ?_⟩
  · change o.totalQuantity.asU32 = req.qty
    rw [repeats.totalQuantity, built.quantity, qty_kept sized]
  · change parseOrderType o.orderType (.finite 0) = unstopped req.orderType
    rw [repeats.orderType, built.orderType, (prices_parts priced).1]
  · intro limited
    change (if o.lmtPrice.isFinite ∧ o.lmtPrice.positive then some o.lmtPrice else none) = _
    rw [repeats.lmtPrice, built.lmtPrice, (prices_parts priced).2.1 limited]
    simp only [Option.filter_some, positivePrice, Bool.and_eq_true]
  · change parseTif o.tif = req.tif
    rw [repeats.tif, built.tif]
  · exact repeats.orderRef.trans built.orderRef

end Relist

-- The modify has a limit price, of its own or from the cache, and a date for a GTD order.
def Repriced (req : PlaceOrderReq) (m : ModifyOrderReq) : Prop :=
  req.orderType ≠ .market → m.price = none → ∃ price, req.price = some price ∧ positivePrice price

def Redated (req : PlaceOrderReq) (m : ModifyOrderReq) : Prop := req.tif = .gtd → m.gtdUntilUtc.isSome

section Placeholder

variable {formats : Formats} {account : String} {back : NaiveDate} {req : PlaceOrderReq} {order : OpenOrder}

theorem repriced_iff {m : ModifyOrderReq} {price : F64} (limited : req.orderType ≠ .market)
    (given : (changed req m).price = some price) :
    Repriced req m ↔ m.price.or (req.price.filter positivePrice) = some price := by
  change m.price.or req.price = some price at given
  cases asked : m.price with
  | some own =>
    rw [asked] at given
    simp only [Option.some_or] at given ⊢
    exact iff_of_true (fun _ missing => absurd (asked.symm.trans missing) (by simp)) given
  | none =>
    rw [asked, Option.none_or] at given
    simp [Repriced, limited, asked, given, Option.filter_some]

theorem placeholder_prices (m : ModifyOrderReq) (relisted : Relisted formats back req order)
    {prices : String × F64 × F64} (priced : orderPrices (changed req m) = .ok prices) :
    (Repriced req m → orderPrices (placeholder account order m) = .ok (prices.1, prices.2.1, .finite 0)) ∧
      ∀ other, orderPrices (placeholder account order m) = .ok other → Repriced req m := by
  have kind : (placeholder account order m).orderType = unstopped req.orderType := relisted.orderType
  by_cases market : req.orderType = .market
  · have asked : orderPrices (changed req m) = .ok ("MKT", .finite 0, .finite 0) := market_prices market
    have sent := @market_prices (placeholder account order m) (by rw [kind, market]; rfl)
    cases priced.symm.trans asked
    exact ⟨fun _ => sent, fun _ _ limited => absurd market limited⟩
  · have limited : (placeholder account order m).orderType ≠ .market := by
      rw [kind]
      exact unstopped_limited market
    have price : (placeholder account order m).price = m.price.or (req.price.filter positivePrice) := by
      rw [← relisted.price market]
      rfl
    cases given : (changed req m).price with
    | none => exact absurd priced (@unpriced (changed req m) market given prices)
    | some wanted =>
      have asked := @limited_prices (changed req m) wanted market given
      cases priced.symm.trans asked
      have same : Repriced req m ↔ (placeholder account order m).price = some wanted := by
        rw [price]
        exact repriced_iff market given
      constructor
      · intro repriced
        rw [limited_prices limited (same.mp repriced), kind, unstopped_text, unstopped_stop]
        rfl
      · intro other taken
        apply same.mpr
        cases kept : (placeholder account order m).price with
        | none => exact absurd taken (unpriced limited kept other)
        | some cached =>
          rw [price] at kept
          exact (or_filter kept).symm.trans given

theorem placeholder_till (m : ModifyOrderReq) (relisted : Relisted formats back req order) {till : String}
    (dated : goodTill formats (changed req m) = .ok till) :
    (Redated req m → goodTill formats (placeholder account order m) = .ok till) ∧
      ∀ other, goodTill formats (placeholder account order m) = .ok other → Redated req m := by
  have force : (placeholder account order m).tif = req.tif := relisted.tif
  have date : (placeholder account order m).gtdUntilUtc = m.gtdUntilUtc := by
    change m.gtdUntilUtc.or order.gtdUntilUtc = _
    rw [relisted.gtdUntilUtc, Option.or_none]
  have changedForce : (changed req m).tif = req.tif := rfl
  have changedDate : (changed req m).gtdUntilUtc = m.gtdUntilUtc.or req.gtdUntilUtc := rfl
  unfold goodTill at dated ⊢
  rw [changedForce, changedDate] at dated
  rw [force, date]
  cases asked : m.gtdUntilUtc with
  | some t =>
    rw [asked] at dated
    exact ⟨fun _ => dated, fun _ _ _ => by rw [asked]; rfl⟩
  | none =>
    cases kind : req.tif <;> rw [kind] at dated <;> simp_all [Redated]

theorem changed_builds {params : PlaceOrderParams} (m : ModifyOrderReq)
    (built : buildPlaceParams formats req account = .ok params) :
    ∃ after, buildPlaceParams formats (changed req m) account = .ok after := by
  obtain ⟨prices, till, priced, dated, -⟩ := build_parts built
  have repriced : ∃ prices, orderPrices (changed req m) = .ok prices := by
    cases kind : req.orderType <;> cases given : req.price <;> cases asked : m.price <;>
      simp_all [orderPrices, changed]
  have redated : ∃ till, goodTill formats (changed req m) = .ok till := by
    cases kind : req.tif <;> cases given : req.gtdUntilUtc <;> cases asked : m.gtdUntilUtc <;>
      simp_all [goodTill, changed]
  obtain ⟨prices, priced⟩ := repriced
  obtain ⟨till, dated⟩ := redated
  exact ⟨_, by rw [buildPlaceParams, priced, dated]; rfl⟩

theorem placeholder_iff (m : ModifyOrderReq) (relisted : Relisted formats back req order) {after : PlaceOrderParams}
    (built : buildPlaceParams formats (changed req m) account = .ok after) (params : PlaceOrderParams) :
    buildPlaceParams formats (placeholder account order m) account = .ok params ↔
      Repriced req m ∧ Redated req m ∧ params = { after with auxPrice := .finite 0, account := account } := by
  obtain ⟨prices, till, priced, dated, -⟩ := build_parts built
  obtain ⟨pricesKept, pricesNeed⟩ := @placeholder_prices formats account back req order m relisted prices priced
  obtain ⟨tillKept, tillNeed⟩ := @placeholder_till formats account back req order m relisted till dated
  constructor
  · intro taken
    obtain ⟨others, other, fine, good, -⟩ := build_parts taken
    have repriced := pricesNeed others fine
    have redated := tillNeed other good
    refine ⟨repriced, redated, ?_⟩
    rw [buildPlaceParams, pricesKept repriced, tillKept redated] at taken
    rw [buildPlaceParams, priced, dated] at built
    cases built
    cases taken
    simp only [placeholder, changed, relisted.side, relisted.qty, relisted.tif, relisted.clientOrderRef,
      Option.getD_some]
  · intro given
    obtain ⟨repriced, redated, rfl⟩ := given
    rw [buildPlaceParams, pricesKept repriced, tillKept redated]
    rw [buildPlaceParams, priced, dated] at built
    cases built
    simp only [placeholder, changed, relisted.side, relisted.qty, relisted.tif, relisted.clientOrderRef,
      Option.getD_some]
    rfl

end Placeholder

section Modifying

variable (chrono : Chrono) (formats : Formats) (account : String)

-- The OpenOrder message of a request that was placed.
def EchoOf (id : ℤ) (req : PlaceOrderReq) (o : OpenOrderMsg) : Prop :=
  ∃ params, buildPlaceParams formats req account = .ok params ∧
    Repeats (placeOrderContractRequest formats req.contract) params id o

-- The frame of the modify is that of the order with only what was asked for replaced.
def ModifiesOnly (s : BrokerState) (id : ℤ) (req : PlaceOrderReq) (m : ModifyOrderReq) : Prop :=
  ∃ after, buildPlaceParams formats (changed req m) account = .ok after ∧
    s.modifyOrder formats account (wrapU64 id) m =
      .ok (placeOrder formats id (placeOrderContractRequest formats req.contract) after)

-- What the order must not have for the loop through the cache to lose nothing.
structure Lossless (req : PlaceOrderReq) (m : ModifyOrderReq) : Prop where
  price : Repriced req m
  date : Redated req m
  expiry : formats.date (reread chrono formats req.contract.expiry) "%Y%m%d" =
    formats.date req.contract.expiry "%Y%m%d"
  strike : ∀ strike, req.contract.strike = some strike → ¬ strike.positive →
    encodeF64 formats strike = encodeF64 formats (.finite 0)
  stop : ∀ stop, req.orderType = .stopLimit stop → encodeF64 formats stop = encodeF64 formats (.finite 0)
  account : req.account.getD account = account

variable {chrono formats account}

theorem session_ids {events : List SessionEvent} {id : ℤ} {o : OpenOrderMsg}
    (last : LastOpenOrder id o (sessionMessages events)) : -2 ^ 31 ≤ o.orderId ∧ o.orderId < 2 ^ 31 := by
  obtain ⟨past, rest, split, -⟩ := last.last
  have member : .openOrder o ∈ sessionMessages events := by
    rw [split]
    exact List.mem_append_right _ List.mem_cons_self
  obtain ⟨event, -, decoded⟩ := List.mem_filterMap.mp member
  cases event with
  | dispatched now publisher fields =>
    have read : parseInbound fields = .ok (.openOrder o) := by
      cases built : parseInbound fields with
      | error fault => simp [SessionEvent.message, built, Except.toOption] at decoded
      | ok value => simpa [SessionEvent.message, built, Except.toOption] using decoded
    exact parseInbound_open parseOpenOrder_ids (fun msg other o equal => absurd equal (other o)) fields _ read o rfl
  | _ => cases decoded

theorem strike_text (strike : Option F64) :
    encodeF64 formats (cachedStrike strike) = encodeF64 formats (strike.getD (.finite 0)) ↔
      ∀ value, strike = some value → ¬ value.positive → encodeF64 formats value = encodeF64 formats (.finite 0) := by
  cases strike with
  | none => simp [cachedStrike]
  | some value =>
    by_cases positive : value.positive = true
    · simp [cachedStrike, positive]
    · simp only [cachedStrike, Option.getD_some, Option.some.injEq, forall_eq', positive, Bool.false_eq_true, if_false,
        not_false_eq_true, true_implies]
      exact eq_comm

theorem stop_text (kind : BrokerApi.OrderType) :
    encodeF64 formats (.finite 0) = encodeF64 formats (stopPrice kind) ↔
      ∀ stop, kind = .stopLimit stop → encodeF64 formats stop = encodeF64 formats (.finite 0) := by
  cases kind <;> simp [stopPrice, eq_comm]

-- What the cache holds of an order once its echo is in.
theorem echo_cached {events : List SessionEvent} {id : ℤ} {req : PlaceOrderReq} {o : OpenOrderMsg}
    (sized : req.qty < 2 ^ 32) (double : req.contract.multiplier.Stored)
    (last : LastOpenOrder id o (sessionMessages events)) (echo : EchoOf formats account id req o) :
    ∃ order, (sessionAfter chrono formats account events).broker.openOrders.get id = some order ∧
      Relisted formats (reread chrono formats req.contract.expiry) req order := by
  obtain ⟨params, built, repeats⟩ := echo
  obtain ⟨prices, till, priced, -, parts⟩ := build_parts built
  obtain ⟨order, listed, same⟩ := @relisted chrono formats account req params prices till id o priced parts sized double
    repeats
  refine ⟨written ((sessionMessages events).foldl (renewed chrono id) ⟨.pendingSubmit, 0⟩) order, ?_, ?_⟩
  · rw [session_cached, echoed_last last repeats.orderId listed]
    rfl
  · exact ⟨same.contract, same.side, same.qty, same.orderType, same.price, same.tif, same.gtdUntilUtc,
      same.clientOrderRef⟩

theorem modify_frame_iff (plain : PlainTexts formats) {s : BrokerState} {id : ℤ} {req : PlaceOrderReq}
    {order : OpenOrder} (known : wrapI32 (wrapU64 id) = id) (cached : s.openOrders.get id = some order)
    (listed : Relisted formats (reread chrono formats req.contract.expiry) req order)
    (m : ModifyOrderReq) {after : PlaceOrderParams}
    (built : buildPlaceParams formats (changed req m) account = .ok after) :
    s.modifyOrder formats account (wrapU64 id) m =
        .ok (placeOrder formats id (placeOrderContractRequest formats req.contract) after) ↔
      Lossless chrono formats account req m := by
  obtain ⟨prices, till, priced, -, parts⟩ := build_parts built
  have aux : after.auxPrice = stopPrice req.orderType := parts.auxPrice.trans (prices_parts priced).2.2
  have owner : after.account = req.account.getD account := parts.account
  have sends : s.modifyOrder formats account (wrapU64 id) m =
      (buildPlaceParams formats (placeholder account order m) account).map fun params =>
        placeOrder formats id (placeOrderContractRequest formats order.contract) params := by
    rw [BrokerState.modifyOrder, known, cached]
    rfl
  have frames := frame_same_iff plain id (placeOrderContractRequest formats req.contract) after req.contract.expiry
    (reread chrono formats req.contract.expiry) "%Y%m%d" rfl
    (cachedStrike req.contract.strike) (.finite 0) account
  rw [← listed.contract, aux, owner] at frames
  have strike := @strike_text formats req.contract.strike
  have stop := @stop_text formats req.orderType
  rw [sends]
  constructor
  · intro same
    cases taken : buildPlaceParams formats (placeholder account order m) account with
    | error e =>
      rw [taken] at same
      cases same
    | ok params =>
      rw [taken] at same
      obtain ⟨price, date, rfl⟩ := (placeholder_iff m listed built params).mp taken
      obtain ⟨expiry, strikes, stops, accounts⟩ := frames.mp (Except.ok.inj same)
      exact ⟨price, date, expiry, strike.mp strikes, stop.mp stops, accounts.symm⟩
  · intro lossless
    have taken := (placeholder_iff m listed built _).mpr ⟨lossless.price, lossless.date, rfl⟩
    have same := frames.mpr ⟨lossless.expiry, strike.mpr lossless.strike, stop.mpr lossless.stop, lossless.account.symm⟩
    rw [taken]
    exact congrArg Except.ok same

end Modifying

-- A modify is exactly what was asked for when nothing of the order is lost in the cache.
theorem modify_only_iff (chrono : Chrono) (formats : Formats) (account : String) (plain : PlainTexts formats)
    (events : List SessionEvent) {id : ℤ} {req : PlaceOrderReq} {o : OpenOrderMsg} (sized : req.qty < 2 ^ 32)
    (double : req.contract.multiplier.Stored) (last : LastOpenOrder id o (sessionMessages events))
    (echo : EchoOf formats account id req o) (m : ModifyOrderReq) :
    ModifiesOnly formats account (sessionAfter chrono formats account events).broker id req m ↔
      Lossless chrono formats account req m := by
  obtain ⟨order, cached, listed⟩ := @echo_cached chrono formats account events id req o sized double last echo
  obtain ⟨params, placed, repeats⟩ := echo
  have bounds := session_ids last
  rw [repeats.orderId] at bounds
  have known := wrapI32_wrapU64 bounds.1 bounds.2
  obtain ⟨after, built⟩ := changed_builds m placed
  have frame := modify_frame_iff plain known cached listed m built
  constructor
  · intro given
    obtain ⟨other, same, sent⟩ := given
    rw [built] at same
    cases same
    exact frame.mp sent
  · intro lossless
    exact ⟨after, built, frame.mpr lossless⟩

-- A good-till-date offer, and the gateway's echo of it.
section Offer

def june : Chrono where
  parseDate _ _ := NaiveDate.fromYmdOpt 2026 6 26

def juneText : Formats where
  ryu x :=
    if x = .ofRat (121 / 20) then "6.05"
    else if x = .ofRat (57 / 2000) then "0.0285"
    else if x = .finite 3 then "3.0"
    else "0.0"
  date _ _ := "20260626"
  time _ _ := "20260626 17:00:00 UTC"

def gtdOffer : PlaceOrderReq where
  contract := {
    instrumentId := 100
    kind := .option
    symbol := "HXE"
    localSymbol := "HXEM6 C605"
    expiry := (NaiveDate.fromYmdOpt 2026 6 26).getD .epoch
    strike := some (.ofRat (121 / 20))
    right := some .call
    multiplier := .finite 25000
    exchange := .comex
    currency := .usd }
  side := .sell
  qty := 3
  orderType := .limit
  price := some (.ofRat (57 / 2000))
  tif := .gtd
  gtdUntilUtc := some 1782493200
  clientOrderRef := "corsair_trader"
  account := none

def offerEcho : OpenOrderMsg where
  orderId := 7
  contract := {
    conId := 100
    symbol := "HXE"
    secType := "FOP"
    lastTradeDate := "20260626"
    strike := .ofRat (121 / 20)
    right := "C"
    multiplier := "25000"
    exchange := "COMEX"
    primaryExchange := ""
    currency := "USD"
    localSymbol := "HXEM6 C605"
    tradingClass := "HXE" }
  action := "SELL"
  totalQuantity := .finite 3
  orderType := "LMT"
  lmtPrice := .ofRat (57 / 2000)
  tif := "GTD"
  account := "DU1"
  orderRef := "corsair_trader"
  status := ""
  filled := .finite 0
  remaining := .finite 0

def offerEchoed : List SessionEvent := [
  .dispatched 1 false ["5", "7", "100", "HXE", "FOP", "20260626", "6.05", "C", "25000", "COMEX", "USD", "HXEM6 C605",
    "HXE", "SELL", "3", "LMT", "0.0285", "", "GTD", "", "DU1", "", "", "corsair_trader"]]

theorem offer_last : LastOpenOrder 7 offerEcho (sessionMessages offerEchoed) :=
  ⟨[], [], by decide +kernel, fun _ member => absurd member List.not_mem_nil⟩

theorem offer_echo : EchoOf juneText "DU1" 7 gtdOffer offerEcho := by
  refine ⟨_, rfl, ?_⟩
  constructor <;> decide +kernel

theorem offer_double : gtdOffer.contract.multiplier.Stored := by
  have exact := @F64.ofRat_int 25000 (by decide)
  change (F64.finite 25000).Stored
  rw [← Int.cast_ofNat, ← exact]
  exact F64.stored_ofRat _

theorem june_plain : PlainTexts juneText := by
  constructor
  · intro x
    unfold encodeF64 juneText
    cases x with
    | nan => decide +kernel
    | infinite negative =>
      change 0 ∉ utf8 "Infinite"
      decide +kernel
    | finite q =>
      simp only
      split
      · decide +kernel
      split
      · decide +kernel
      split <;> decide +kernel
  · intro date format
    change 0 ∉ utf8 "20260626"
    decide +kernel

end Offer

theorem modify_only_dated :
    ModifiesOnly juneText "DU1" (sessionAfter june juneText "DU1" offerEchoed).broker 7 gtdOffer
      ⟨some (.ofRat (57 / 2000)), some 2, some 1782493200⟩ := by
  rw [modify_only_iff june juneText "DU1" june_plain offerEchoed (by decide) offer_double offer_last offer_echo]
  constructor
  case price =>
    intro _ missing
    cases missing
  case date =>
    intro _
    rfl
  case expiry => rfl
  case strike =>
    intro strike given free
    cases given
    exact absurd (by decide +kernel) free
  case stop =>
    intro stop given
    cases given
  case account => rfl

-- With the price alone the date is missed.
theorem date_lost :
    ¬∀ events id req o, req.qty < 2 ^ 32 → req.contract.multiplier.Stored →
      LastOpenOrder id o (sessionMessages events) → EchoOf juneText "DU1" id req o →
      ∀ m, ModifiesOnly juneText "DU1" (sessionAfter june juneText "DU1" events).broker id req m := by
  intro kept
  obtain ⟨after, -, sent⟩ := kept offerEchoed 7 gtdOffer offerEcho (by decide) offer_double offer_last offer_echo
    ⟨some (.ofRat (3 / 100)), none, none⟩
  have refused : (sessionAfter june juneText "DU1" offerEchoed).broker.modifyOrder juneText "DU1" (wrapU64 7)
      ⟨some (.ofRat (3 / 100)), none, none⟩ = .error (.invalidRequest "Gtd TIF requires gtd_until_utc") := by
    decide +kernel
  rw [refused] at sent
  cases sent

end Corsair.Native
