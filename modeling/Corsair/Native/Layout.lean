import Corsair.Native.Decoder

namespace Corsair.Native

-- What a message holds of one field of its frame, under the name that the layout
-- comment of its parser gives the field.
inductive Reading where
  | int (value : ℤ)
  | int64 (value : ℤ)
  | float (value : F64)
  | text (value : String)
  deriving DecidableEq

def Reading.Parses : Reading → String → Prop
  | .int value, wire => parseInt wire = .ok value
  | .int64 value, wire => parseInt64 wire = .ok value
  | .float value, wire => parseF64 wire = .ok value
  | .text value, wire => value = wire

def Reading.Absent : Reading → Prop
  | .int value => value = 0
  | .int64 _ => False
  | .float value => value = .finite 0
  | .text value => value = ""

structure Cell where
  name : String
  reading : Reading
  deriving DecidableEq

-- `names` is the list of the comment; `optional` are the trailing fields that the
-- parser takes with `fields.get`.
structure Layout where
  names : List String
  optional : List String

def Layout.position (layout : Layout) (name : String) : ℕ := layout.names.idxOf name

structure Cell.ReadFrom (layout : Layout) (fields : Frame) (cell : Cell) : Prop where
  listed : cell.name ∈ layout.names
  present : ∀ wire, fields[layout.position cell.name]? = some wire → cell.reading.Parses wire
  absent : fields[layout.position cell.name]? = none → cell.name ∈ layout.optional ∧ cell.reading.Absent

-- The comments of decoder.rs. Those of contractDetails and openOrder end in "many
-- more"; the second goes on inside its parser, at 17. The last one of the list has no
-- comment of its own and is laid out as the head of the file says, version before body.
def layout : ℤ → Layout
  | 1 => ⟨["1", "version", "reqId", "tickType", "price", "size_or_unset", "attribs"], ["attribs"]⟩
  | 2 => ⟨["2", "version", "reqId", "tickType", "size"], []⟩
  | 21 => ⟨["21", "reqId", "tickType", "attrib", "iv", "delta", "optPrice", "pvDividend", "gamma", "vega", "theta",
      "undPrice"], []⟩
  | 3 => ⟨["3", "orderId", "status", "filled", "remaining", "avgFillPrice", "permId", "parentId", "lastFillPrice",
      "clientId", "whyHeld", "mktCapPrice"], []⟩
  | 4 => ⟨["4", "version", "reqId", "errorCode", "errorString", "advancedOrderRejectJson"],
      ["advancedOrderRejectJson"]⟩
  | 6 => ⟨["6", "version", "key", "value", "currency", "accountName"], []⟩
  | 61 => ⟨["61", "version", "account", "conId", "symbol", "secType", "expiry", "strike", "right", "multiplier",
      "exchange", "currency", "localSymbol", "tradingClass", "position", "avgCost"], []⟩
  | 10 => ⟨["10", "reqId", "symbol", "secType", "expiry", "strike", "right", "exchange", "currency", "localSymbol",
      "marketName", "tradingClass", "conId", "minTick", "mdSizeMultiplier", "multiplier"], ["multiplier"]⟩
  | 11 => ⟨["11", "version", "reqId", "orderId", "conId", "symbol", "secType", "expiry", "strike", "right",
      "multiplier", "exchange", "currency", "localSymbol", "tradingClass", "execId", "time", "acctNumber", "exchange",
      "side", "shares", "price", "permId", "clientId", "liquidation", "cumQty", "avgPrice", "orderRef", "evRule",
      "evMultiplier", "modelCode", "lastLiquidity"], ["liquidation", "cumQty", "avgPrice", "orderRef"]⟩
  | 59 => ⟨["59", "version", "execId", "commission", "currency", "realizedPNL", "yield", "yieldRedemptionDate"], []⟩
  | 5 => ⟨["5", "orderId", "conId", "symbol", "secType", "expiry", "strike", "right", "multiplier", "exchange",
      "currency", "localSymbol", "tradingClass", "action", "totalQty", "orderType", "lmtPrice", "aux_price", "tif",
      "oca_group", "account", "open_close", "origin", "order_ref"], ["tif", "account", "order_ref"]⟩
  | 9 => ⟨["9", "1", "orderId"], ["orderId"]⟩
  | 55 => ⟨["55", "version", "reqId"], ["reqId"]⟩
  | _ => ⟨[], []⟩

-- Every field a message was given by its frame, but the second `exchange` of an execution,
-- a text. The constants of the parsers (a primary exchange, an open order's status,
-- filled and remaining) are no readings.
def InboundMsg.readings : InboundMsg → List Cell
  | .tickPrice m => [⟨"reqId", .int m.reqId⟩, ⟨"tickType", .int m.tickType⟩, ⟨"price", .float m.price⟩,
      ⟨"attribs", .int m.attribs⟩]
  | .tickSize m => [⟨"reqId", .int m.reqId⟩, ⟨"tickType", .int m.tickType⟩, ⟨"size", .float m.size⟩]
  | .tickOptionComputation m => [⟨"reqId", .int m.reqId⟩, ⟨"tickType", .int m.tickType⟩,
      ⟨"attrib", .int m.tickAttrib⟩, ⟨"iv", .float m.impliedVol⟩, ⟨"delta", .float m.delta⟩,
      ⟨"optPrice", .float m.optPrice⟩, ⟨"pvDividend", .float m.pvDividend⟩, ⟨"gamma", .float m.gamma⟩,
      ⟨"vega", .float m.vega⟩, ⟨"theta", .float m.theta⟩, ⟨"undPrice", .float m.undPrice⟩]
  | .orderStatus m => [⟨"orderId", .int m.orderId⟩, ⟨"status", .text m.status⟩, ⟨"filled", .float m.filled⟩,
      ⟨"remaining", .float m.remaining⟩, ⟨"avgFillPrice", .float m.avgFillPrice⟩, ⟨"permId", .int m.permId⟩,
      ⟨"parentId", .int m.parentId⟩, ⟨"lastFillPrice", .float m.lastFillPrice⟩, ⟨"clientId", .int m.clientId⟩,
      ⟨"whyHeld", .text m.whyHeld⟩, ⟨"mktCapPrice", .float m.mktCapPrice⟩]
  | .error m => [⟨"reqId", .int m.reqId⟩, ⟨"errorCode", .int m.errorCode⟩, ⟨"errorString", .text m.errorString⟩,
      ⟨"advancedOrderRejectJson", .text m.advancedOrderRejectJson⟩]
  | .accountValue m => [⟨"key", .text m.key⟩, ⟨"value", .text m.value⟩, ⟨"currency", .text m.currency⟩,
      ⟨"accountName", .text m.account⟩]
  | .position m => [⟨"account", .text m.account⟩, ⟨"conId", .int64 m.contract.conId⟩,
      ⟨"symbol", .text m.contract.symbol⟩, ⟨"secType", .text m.contract.secType⟩,
      ⟨"expiry", .text m.contract.lastTradeDate⟩, ⟨"strike", .float m.contract.strike⟩,
      ⟨"right", .text m.contract.right⟩, ⟨"multiplier", .text m.contract.multiplier⟩,
      ⟨"exchange", .text m.contract.exchange⟩, ⟨"currency", .text m.contract.currency⟩,
      ⟨"localSymbol", .text m.contract.localSymbol⟩, ⟨"tradingClass", .text m.contract.tradingClass⟩,
      ⟨"position", .float m.position⟩, ⟨"avgCost", .float m.avgCost⟩]
  | .contractDetails m => [⟨"reqId", .int m.reqId⟩, ⟨"symbol", .text m.contract.symbol⟩,
      ⟨"secType", .text m.contract.secType⟩, ⟨"expiry", .text m.contract.lastTradeDate⟩,
      ⟨"strike", .float m.contract.strike⟩, ⟨"right", .text m.contract.right⟩,
      ⟨"exchange", .text m.contract.exchange⟩, ⟨"currency", .text m.contract.currency⟩,
      ⟨"localSymbol", .text m.contract.localSymbol⟩, ⟨"tradingClass", .text m.contract.tradingClass⟩,
      ⟨"conId", .int64 m.contract.conId⟩, ⟨"multiplier", .text m.contract.multiplier⟩]
  | .execution m => [⟨"reqId", .int m.reqId⟩, ⟨"orderId", .int m.orderId⟩, ⟨"conId", .int64 m.contract.conId⟩,
      ⟨"symbol", .text m.contract.symbol⟩, ⟨"secType", .text m.contract.secType⟩,
      ⟨"expiry", .text m.contract.lastTradeDate⟩, ⟨"strike", .float m.contract.strike⟩,
      ⟨"right", .text m.contract.right⟩, ⟨"multiplier", .text m.contract.multiplier⟩,
      ⟨"exchange", .text m.contract.exchange⟩, ⟨"currency", .text m.contract.currency⟩,
      ⟨"localSymbol", .text m.contract.localSymbol⟩, ⟨"tradingClass", .text m.contract.tradingClass⟩,
      ⟨"execId", .text m.execId⟩, ⟨"time", .text m.time⟩, ⟨"acctNumber", .text m.account⟩, ⟨"side", .text m.side⟩,
      ⟨"shares", .float m.shares⟩, ⟨"price", .float m.price⟩, ⟨"permId", .int m.permId⟩,
      ⟨"clientId", .int m.clientId⟩, ⟨"liquidation", .int m.liquidation⟩, ⟨"cumQty", .float m.cumQty⟩,
      ⟨"avgPrice", .float m.avgPrice⟩, ⟨"orderRef", .text m.orderRef⟩]
  | .commissionReport m => [⟨"execId", .text m.execId⟩, ⟨"commission", .float m.commission⟩,
      ⟨"currency", .text m.currency⟩, ⟨"realizedPNL", .float m.realizedPnl⟩]
  | .openOrder m => [⟨"orderId", .int m.orderId⟩, ⟨"conId", .int64 m.contract.conId⟩,
      ⟨"symbol", .text m.contract.symbol⟩, ⟨"secType", .text m.contract.secType⟩,
      ⟨"expiry", .text m.contract.lastTradeDate⟩, ⟨"strike", .float m.contract.strike⟩,
      ⟨"right", .text m.contract.right⟩, ⟨"multiplier", .text m.contract.multiplier⟩,
      ⟨"exchange", .text m.contract.exchange⟩, ⟨"currency", .text m.contract.currency⟩,
      ⟨"localSymbol", .text m.contract.localSymbol⟩, ⟨"tradingClass", .text m.contract.tradingClass⟩,
      ⟨"action", .text m.action⟩, ⟨"totalQty", .float m.totalQuantity⟩, ⟨"orderType", .text m.orderType⟩,
      ⟨"lmtPrice", .float m.lmtPrice⟩, ⟨"tif", .text m.tif⟩, ⟨"account", .text m.account⟩,
      ⟨"order_ref", .text m.orderRef⟩]
  | .nextValidId orderId => [⟨"orderId", .int orderId⟩]
  | .executionEnd reqId => [⟨"reqId", .int reqId⟩]
  | _ => []

-- A decoder that cannot index past its frame and only builds what `P` allows.
def InFrame {α : Type} (P : α → Prop) (decoded : Decoded α) : Prop :=
  decoded ≠ .error .panic ∧ ∀ value, decoded = .ok value → P value

section Rules

variable {α β : Type} {P : β → Prop}

theorem inFrame_pure {value : β} (held : P value) : InFrame P (pure value : Decoded β) := by
  refine ⟨by simp [pure, Except.pure], ?_⟩
  intro other returned
  cases returned
  exact held

theorem inFrame_mono {Q : β → Prop} {decoded : Decoded β} (weaker : ∀ b, P b → Q b) (sound : InFrame P decoded) :
    InFrame Q decoded := ⟨sound.1, fun value returned => weaker value (sound.2 value returned)⟩

theorem inFrame_bind {first : Decoded α} {rest : α → Decoded β} (inside : first ≠ .error .panic)
    (all : ∀ a, first = .ok a → InFrame P (rest a)) : InFrame P (first >>= rest) := by
  cases first with
  | ok a => exact all a rfl
  | error fault =>
    refine ⟨?_, fun value returned => by cases returned⟩
    intro panics
    cases panics
    exact inside rfl

theorem needFields_panic (what : String) (least : ℕ) (fields : Frame) :
    needFields what least fields ≠ .error .panic := by
  unfold needFields malformed
  split <;> simp

theorem inFrame_need {what : String} {least : ℕ} {fields : Frame} {rest : Unit → Decoded β}
    (enough : least ≤ fields.length → InFrame P (rest ())) : InFrame P (needFields what least fields >>= rest) := by
  refine inFrame_bind (needFields_panic what least fields) ?_
  intro _ passed
  apply enough
  unfold needFields malformed at passed
  split at passed
  · cases passed
  · omega

theorem field_inside {fields : Frame} {i : ℕ} (inside : i < fields.length) :
    ∃ text, fields[i]? = some text ∧ field fields i = .ok text := by
  refine ⟨fields[i], List.getElem?_eq_getElem inside, ?_⟩
  simp [field, List.getElem?_eq_getElem inside]

theorem inFrame_field {fields : Frame} {i : ℕ} {rest : String → Decoded β} (inside : i < fields.length)
    (all : ∀ text, fields[i]? = some text → InFrame P (rest text)) : InFrame P (field fields i >>= rest) := by
  obtain ⟨text, at_i, read⟩ := field_inside inside
  rw [read]
  exact all text at_i

theorem parseInt_panic (text : String) : parseInt text ≠ .error .panic := by
  unfold parseInt malformed
  split <;> simp

theorem parseInt64_panic (text : String) : parseInt64 text ≠ .error .panic := by
  unfold parseInt64 malformed
  split <;> simp

theorem parseF64_panic (text : String) : parseF64 text ≠ .error .panic := by
  unfold parseF64 malformed
  split
  · simp
  · split
    · simp
    · split <;> simp

theorem inFrame_int {text : String} {rest : ℤ → Decoded β} (all : ∀ n, parseInt text = .ok n → InFrame P (rest n)) :
    InFrame P (parseInt text >>= rest) := inFrame_bind (parseInt_panic text) all

theorem inFrame_int64 {text : String} {rest : ℤ → Decoded β} (all : ∀ n, parseInt64 text = .ok n → InFrame P (rest n)) :
    InFrame P (parseInt64 text >>= rest) := inFrame_bind (parseInt64_panic text) all

theorem inFrame_float {text : String} {rest : F64 → Decoded β} (all : ∀ x, parseF64 text = .ok x → InFrame P (rest x)) :
    InFrame P (parseF64 text >>= rest) := inFrame_bind (parseF64_panic text) all

end Rules

section Readings

variable {names : Layout} {fields : Frame} {name : String} {i : ℕ} {wire : String}

-- A value that was parsed from a field the layout has under its name.
theorem read_at {reading : Reading} (parsed : reading.Parses wire) (present : fields[i]? = some wire)
    (slot : name ∈ names.names ∧ names.position name = i) : Cell.ReadFrom names fields ⟨name, reading⟩ := by
  obtain ⟨named, at_i⟩ := slot
  constructor
  case listed => exact named
  case present =>
    intro text found
    rw [at_i, present] at found
    cases found
    exact parsed
  case absent =>
    intro missing
    rw [at_i, present] at missing
    cases missing

theorem read_int {value : ℤ} (parsed : parseInt wire = .ok value) (present : fields[i]? = some wire)
    (slot : name ∈ names.names ∧ names.position name = i) : Cell.ReadFrom names fields ⟨name, .int value⟩ :=
  read_at parsed present slot

theorem read_int64 {value : ℤ} (parsed : parseInt64 wire = .ok value) (present : fields[i]? = some wire)
    (slot : name ∈ names.names ∧ names.position name = i) : Cell.ReadFrom names fields ⟨name, .int64 value⟩ :=
  read_at parsed present slot

theorem read_float {value : F64} (parsed : parseF64 wire = .ok value) (present : fields[i]? = some wire)
    (slot : name ∈ names.names ∧ names.position name = i) : Cell.ReadFrom names fields ⟨name, .float value⟩ :=
  read_at parsed present slot

theorem read_text (present : fields[i]? = some wire) (slot : name ∈ names.names ∧ names.position name = i) :
    Cell.ReadFrom names fields ⟨name, .text wire⟩ := read_at rfl present slot

theorem read_or {reading : Reading} {default : String} (parsed : reading.Parses (fieldOr default fields i))
    (absent : reading.Parses default → reading.Absent)
    (slot : name ∈ names.optional ∧ name ∈ names.names ∧ names.position name = i) :
    Cell.ReadFrom names fields ⟨name, reading⟩ := by
  obtain ⟨optional, named, at_i⟩ := slot
  constructor
  case listed => exact named
  case present =>
    intro text found
    rw [at_i] at found
    simpa only [fieldOr, found, Option.getD_some] using parsed
  case absent =>
    intro missing
    rw [at_i] at missing
    simp only [fieldOr, missing, Option.getD_none] at parsed
    exact ⟨optional, absent parsed⟩

theorem read_or_text (slot : name ∈ names.optional ∧ name ∈ names.names ∧ names.position name = i) :
    Cell.ReadFrom names fields ⟨name, .text (fieldOr "" fields i)⟩ := read_or rfl id slot

theorem parseInt_zero : parseInt "0" = .ok 0 := by decide +kernel
theorem parseF64_zero : parseF64 "0" = .ok (.finite 0) := by decide +kernel

theorem read_or_int {value : ℤ} (parsed : parseInt (fieldOr "0" fields i) = .ok value)
    (slot : name ∈ names.optional ∧ name ∈ names.names ∧ names.position name = i) :
    Cell.ReadFrom names fields ⟨name, .int value⟩ := by
  apply @read_or _ _ _ _ (.int value) "0" parsed ?_ slot
  intro zero
  rw [Reading.Parses, parseInt_zero] at zero
  cases zero
  rfl

theorem read_or_float {value : F64} (parsed : parseF64 (fieldOr "0" fields i) = .ok value)
    (slot : name ∈ names.optional ∧ name ∈ names.names ∧ names.position name = i) :
    Cell.ReadFrom names fields ⟨name, .float value⟩ := by
  apply @read_or _ _ _ _ (.float value) "0" parsed ?_ slot
  intro zero
  rw [Reading.Parses, parseF64_zero] at zero
  cases zero
  rfl

end Readings

def InboundMsg.ReadFrom (names : Layout) (fields : Frame) (msg : InboundMsg) : Prop :=
  ∀ cell ∈ msg.readings, cell.ReadFrom names fields

theorem no_readings {names : Layout} {fields : Frame} {msg : InboundMsg} (none : msg.readings = []) :
    msg.ReadFrom names fields := by
  intro cell member
  rw [none] at member
  cases member

variable (fields : Frame)

-- The parsers that read their frame by position, each under its message id.
def typedParsers : List (ℤ × (Frame → Decoded InboundMsg)) := [
  (1, parseTickPrice),
  (2, parseTickSize),
  (21, parseTickOptionComputation),
  (3, parseOrderStatus),
  (4, parseError),
  (6, parseAccountValue),
  (61, parsePosition),
  (10, parseContractDetails),
  (11, parseExecution),
  (59, parseCommission),
  (5, parseOpenOrder)]

-- Behind the minimum length every direct index is inside the frame, and each value of
-- the message is bound to the field it was parsed from.
theorem typedParsers_inFrame :
    ∀ typed ∈ typedParsers, InFrame (InboundMsg.ReadFrom (layout typed.1) fields) (typed.2 fields) := by
  unfold typedParsers
  repeat' refine List.forall_mem_cons.mpr ⟨?_, ?_⟩
  all_goals try exact List.forall_mem_nil _
  all_goals
    refine inFrame_need fun enough => ?_
    -- Without unfolding each rule fits its own reader only.
    repeat first
      | with_reducible refine inFrame_field (by omega) fun text present => ?_
      | with_reducible refine inFrame_int fun value parsed => ?_
      | with_reducible refine inFrame_int64 fun value parsed => ?_
      | with_reducible refine inFrame_float fun value parsed => ?_
    refine inFrame_pure ?_
    simp only [InboundMsg.ReadFrom, InboundMsg.readings, List.forall_mem_cons]
    and_intros
    all_goals with_reducible first
      | exact read_text (by assumption) (by decide)
      | exact read_int (by assumption) (by assumption) (by decide)
      | exact read_int64 (by assumption) (by assumption) (by decide)
      | exact read_float (by assumption) (by assumption) (by decide)
      | exact read_or_int (by assumption) (by decide)
      | exact read_or_float (by assumption) (by decide)
      | exact read_or_text (by decide)
      | exact List.forall_mem_nil _

theorem optionalId_inFrame {names : Layout} {message : ℤ → InboundMsg} {name : String} {i : ℕ}
    (readings : ∀ n, (message n).readings = [⟨name, .int n⟩])
    (slot : name ∈ names.optional ∧ name ∈ names.names ∧ names.position name = i) :
    InFrame (InboundMsg.ReadFrom names fields) (do return message (← parseInt (fieldOr "0" fields i))) := by
  refine inFrame_int fun n parsed => inFrame_pure ?_
  intro cell member
  rw [readings, List.mem_singleton] at member
  rw [member]
  exact read_or_int parsed slot

theorem parseInbound_inFrame :
    InFrame (fun msg => ∃ head ty, fields[0]? = some head ∧ parseInt head = .ok ty ∧ msg.ReadFrom (layout ty) fields)
      (parseInbound fields) := by
  cases fields with
  | nil =>
    refine ⟨by simp [parseInbound, malformed], ?_⟩
    intro msg returned
    cases returned
  | cons head rest =>
    refine inFrame_int fun ty typed => ?_
    refine inFrame_mono (fun msg read => ⟨head, ty, rfl, typed, read⟩) ?_
    clear typed
    generalize head :: rest = fields
    split
    case h_1 => exact typedParsers_inFrame fields (1, parseTickPrice) (by simp [typedParsers])
    case h_2 => exact typedParsers_inFrame fields (2, parseTickSize) (by simp [typedParsers])
    case h_3 => exact typedParsers_inFrame fields (21, parseTickOptionComputation) (by simp [typedParsers])
    case h_4 => exact typedParsers_inFrame fields (3, parseOrderStatus) (by simp [typedParsers])
    case h_5 => exact typedParsers_inFrame fields (4, parseError) (by simp [typedParsers])
    case h_6 => exact typedParsers_inFrame fields (5, parseOpenOrder) (by simp [typedParsers])
    case h_7 => exact typedParsers_inFrame fields (6, parseAccountValue) (by simp [typedParsers])
    case h_10 => exact optionalId_inFrame fields (fun n => rfl) (by decide)
    case h_11 => exact typedParsers_inFrame fields (10, parseContractDetails) (by simp [typedParsers])
    case h_12 => exact typedParsers_inFrame fields (11, parseExecution) (by simp [typedParsers])
    case h_14 => exact typedParsers_inFrame fields (59, parseCommission) (by simp [typedParsers])
    case h_15 => exact typedParsers_inFrame fields (61, parsePosition) (by simp [typedParsers])
    case h_19 => exact optionalId_inFrame fields (fun n => rfl) (by decide)
    all_goals exact inFrame_pure (no_readings rfl)

theorem inbound_within :
    ((∃ msg, parseInbound fields = .ok msg) ∨ ∃ error, parseInbound fields = .error (.native error)) ∧
    ∀ msg, parseInbound fields = .ok msg → ∃ head ty, fields[0]? = some head ∧ parseInt head = .ok ty ∧
      ∀ cell ∈ msg.readings, cell.ReadFrom (layout ty) fields := by
  refine ⟨?_, (parseInbound_inFrame fields).2⟩
  cases decoded : parseInbound fields with
  | ok msg => exact .inl ⟨msg, rfl⟩
  | error fault =>
    cases fault with
    | native error => exact .inr ⟨error, rfl⟩
    | panic => exact absurd decoded (parseInbound_inFrame fields).1

-- A tick without its trailing field: the attributes read as 0.
theorem inbound_within_short :
    parseInbound ["1", "6", "9", "1", "2.5", "0"] = .ok (.tickPrice ⟨9, 1, .finite (5 / 2), 0⟩) ∧
    ∃ head ty, ["1", "6", "9", "1", "2.5", "0"][0]? = some head ∧ parseInt head = .ok ty ∧
      ∀ cell ∈ (InboundMsg.tickPrice ⟨9, 1, .finite (5 / 2), 0⟩).readings,
        cell.ReadFrom (layout ty) ["1", "6", "9", "1", "2.5", "0"] := by
  have decoded : parseInbound ["1", "6", "9", "1", "2.5", "0"] = .ok (.tickPrice ⟨9, 1, .finite (5 / 2), 0⟩) := by
    decide +kernel
  exact ⟨decoded, (inbound_within _).2 _ decoded⟩

end Corsair.Native
