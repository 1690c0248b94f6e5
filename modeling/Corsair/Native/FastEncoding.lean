import Corsair.Native.PlaceTemplate

namespace Corsair.Native.Bytewise

open Framing

-- The text of a number as itoa and ryu give it, for any type of floats.
structure Formatters (φ : Type) where
  itoa : ℤ → String
  ryu : φ → String
  isInfinite : φ → Bool
  zero : φ

-- requests.rs
structure ContractRequest (φ : Type) where
  conId : ℤ
  symbol : String
  secType : String
  lastTradeDate : String
  strike : φ
  right : String
  multiplier : String
  exchange : String
  primaryExchange : String
  currency : String
  localSymbol : String
  tradingClass : String

structure PlaceOrderParams (φ : Type) where
  action : String
  totalQuantity : φ
  orderType : String
  lmtPrice : φ
  auxPrice : φ
  tif : String
  goodTillDate : String
  account : String
  orderRef : String
  outsideRth : Bool

section Encoders

variable {φ : Type} (formatters : Formatters φ)

-- codec.rs: each helper twice, as text and onto a buffer.
def encodeInt (v : ℤ) : String := formatters.itoa v
def encodeInt64 (v : ℤ) : String := formatters.itoa v
def encodeF64 (v : φ) : String := if formatters.isInfinite v then "Infinite" else formatters.ryu v

def writeInt (buf : Bytes) (v : ℤ) : Bytes := buf ++ utf8 (formatters.itoa v)
def writeF64 (buf : Bytes) (v : φ) : Bytes :=
  if formatters.isInfinite v then buf ++ utf8 "Infinite" else buf ++ utf8 (formatters.ryu v)

def push (buf : Bytes) (byte : UInt8) : Bytes := buf ++ [byte]

def placeOrder (orderId : ℤ) (contract : ContractRequest φ) (params : PlaceOrderParams φ) : Bytes :=
  encodeFields [
    encodeInt formatters outPlaceOrder, encodeInt formatters orderId,
    encodeInt64 formatters contract.conId, contract.symbol, contract.secType, contract.lastTradeDate,
    encodeF64 formatters contract.strike, contract.right, contract.multiplier, contract.exchange,
    contract.primaryExchange, contract.currency, contract.localSymbol, contract.tradingClass,
    encodeUnset, encodeUnset,
    params.action, encodeF64 formatters params.totalQuantity, params.orderType, encodeF64 formatters params.lmtPrice,
    encodeF64 formatters params.auxPrice, params.tif, encodeUnset, params.account, encodeUnset, encodeInt formatters 0,
    params.orderRef, encodeBool true, encodeInt formatters 0, encodeBool false, encodeBool false,
    encodeInt formatters 0, encodeInt formatters 0, encodeBool params.outsideRth, encodeBool false, encodeUnset,
    encodeF64 formatters formatters.zero, params.goodTillDate, encodeUnset, encodeUnset, encodeUnset, encodeUnset,
    encodeUnset, encodeUnset, encodeUnset, encodeUnset,
    encodeInt formatters (-1), encodeInt formatters 0, encodeUnset, encodeUnset, encodeBool false, encodeUnset,
    encodeUnset, encodeBool false, encodeBool false, encodeUnset, encodeInt formatters 0, encodeUnset, encodeUnset,
    encodeUnset, encodeUnset, encodeUnset, encodeBool false, encodeUnset, encodeUnset, encodeUnset, encodeUnset,
    encodeUnset, encodeUnset, encodeUnset, encodeUnset, encodeUnset, encodeUnset, encodeUnset, encodeUnset,
    encodeUnset, encodeUnset, encodeUnset, encodeBool false, encodeBool false, encodeUnset, encodeBool false,
    encodeUnset, encodeUnset, encodeBool false, encodeBool false, encodeUnset, encodeBool false, encodeUnset,
    encodeUnset, encodeUnset, encodeInt formatters 0, encodeUnset, encodeUnset, encodeUnset, encodeUnset,
    encodeUnset, encodeUnset, encodeUnset, encodeUnset, encodeInt formatters 0, encodeUnset, encodeUnset,
    encodeUnset, encodeUnset, encodeUnset, encodeUnset, encodeUnset, encodeUnset, encodeBool false,
    encodeBool false, encodeBool false, encodeUnset, encodeInt formatters 0, encodeInt formatters 0, encodeUnset,
    encodeUnset, encodeUnset]

-- place_template.rs
def encodeIntLong (v : ℤ) : String := toString v

-- The loop both cached sections are made by.
def pushFields (fields : List String) : Bytes := fields.foldl (fun bytes f => push (bytes ++ utf8 f) 0) []

def fromContract (c : ContractRequest φ) : Bytes :=
  pushFields [
    encodeIntLong c.conId, c.symbol, c.secType, c.lastTradeDate, encodeF64 formatters c.strike, c.right,
    c.multiplier, c.exchange, c.primaryExchange, c.currency, c.localSymbol, c.tradingClass, encodeUnset, encodeUnset]

def trailingBytes : Bytes :=
  pushFields [
    encodeInt formatters (-1), encodeInt formatters 0, encodeUnset, encodeUnset, encodeBool false, encodeUnset,
    encodeUnset, encodeBool false, encodeBool false, encodeUnset, encodeInt formatters 0, encodeUnset, encodeUnset,
    encodeUnset, encodeUnset, encodeUnset, encodeBool false, encodeUnset, encodeUnset, encodeUnset, encodeUnset,
    encodeUnset, encodeUnset, encodeUnset, encodeUnset, encodeUnset, encodeUnset, encodeUnset, encodeUnset,
    encodeUnset, encodeUnset, encodeUnset, encodeBool false, encodeBool false, encodeUnset, encodeBool false,
    encodeUnset, encodeUnset, encodeBool false, encodeBool false, encodeUnset, encodeBool false, encodeUnset,
    encodeUnset, encodeUnset, encodeInt formatters 0, encodeUnset, encodeUnset, encodeUnset, encodeUnset,
    encodeUnset, encodeUnset, encodeUnset, encodeUnset, encodeInt formatters 0, encodeUnset, encodeUnset,
    encodeUnset, encodeUnset, encodeUnset, encodeUnset, encodeUnset, encodeUnset, encodeBool false,
    encodeBool false, encodeBool false, encodeUnset, encodeInt formatters 0, encodeInt formatters 0, encodeUnset,
    encodeUnset, encodeUnset]

def pushField (buf : Bytes) (field : String) : Bytes := push (buf ++ utf8 field) 0

def placeOrderFast (orderId : ℤ) (template : Bytes) (params : PlaceOrderParams φ) : Bytes :=
  let payload := push (writeInt formatters [] outPlaceOrder) 0
  let payload := push (writeInt formatters payload orderId) 0
  let payload := payload ++ template
  let payload := pushField payload params.action
  let payload := push (writeF64 formatters payload params.totalQuantity) 0
  let payload := pushField payload params.orderType
  let payload := push (writeF64 formatters payload params.lmtPrice) 0
  let payload := push (writeF64 formatters payload params.auxPrice) 0
  let payload := pushField payload params.tif
  let payload := pushField payload ""
  let payload := pushField payload params.account
  let payload := pushField payload ""
  let payload := pushField payload "0"
  let payload := pushField payload params.orderRef
  let payload := pushField payload "1"
  let payload := pushField payload "0"
  let payload := pushField payload "0"
  let payload := pushField payload "0"
  let payload := pushField payload "0"
  let payload := pushField payload "0"
  let payload := pushField payload (if params.outsideRth then "1" else "0")
  let payload := pushField payload "0"
  let payload := pushField payload ""
  let payload := push (writeF64 formatters payload formatters.zero) 0
  let payload := pushField payload params.goodTillDate
  let payload := pushField payload ""
  let payload := pushField payload ""
  let payload := pushField payload ""
  let payload := pushField payload ""
  let payload := pushField payload ""
  let payload := pushField payload ""
  let payload := pushField payload ""
  let payload := pushField payload ""
  let payload := payload ++ trailingBytes formatters
  prefixed payload

end Encoders

-- The order body as fields, the constants as the literals they are pushed as.
def bodyFields {φ : Type} (formatters : Formatters φ) (p : PlaceOrderParams φ) : List String :=
  [p.action, encodeF64 formatters p.totalQuantity, p.orderType, encodeF64 formatters p.lmtPrice,
    encodeF64 formatters p.auxPrice, p.tif, "", p.account, "", "0", p.orderRef, "1", "0", "0", "0", "0", "0",
    if p.outsideRth then "1" else "0", "0", "", encodeF64 formatters formatters.zero, p.goodTillDate, "", "", "", "",
    "", "", "", ""]

section Buffers

variable {φ : Type} {formatters : Formatters φ} (before : Bytes)

theorem pushField_payload (fields : List String) (field : String) :
    pushField (before ++ payloadOf fields) field = before ++ payloadOf (fields ++ [field]) := by
  rw [payload_append]
  simp [pushField, push, payloadOf]

theorem writeInt_payload (fields : List String) (v : ℤ) :
    push (writeInt formatters (before ++ payloadOf fields) v) 0 =
      before ++ payloadOf (fields ++ [encodeInt formatters v]) :=
  pushField_payload before fields _

theorem writeF64_payload (fields : List String) (v : φ) :
    push (writeF64 formatters (before ++ payloadOf fields) v) 0 =
      before ++ payloadOf (fields ++ [encodeF64 formatters v]) := by
  unfold writeF64 encodeF64
  split
  · exact pushField_payload before fields _
  · exact pushField_payload before fields _

theorem pushFields_payload (fields : List String) : pushFields fields = payloadOf fields := by
  induction fields using List.reverseRecOn with
  | nil => rfl
  | append_singleton past field same =>
    have pushed := pushField_payload [] past field
    rw [List.nil_append, List.nil_append] at pushed
    rw [← pushed, ← same]
    simp [pushFields, pushField]

theorem placeOrderFast_split (orderId : ℤ) (template : Bytes) (p : PlaceOrderParams φ) :
    placeOrderFast formatters orderId template p =
      prefixed (payloadOf [encodeInt formatters outPlaceOrder, encodeInt formatters orderId] ++ template ++
        payloadOf (bodyFields formatters p) ++ trailingBytes formatters) := by
  have typed : push (writeInt formatters [] outPlaceOrder) 0 = [] ++ payloadOf [encodeInt formatters outPlaceOrder] :=
    writeInt_payload [] [] outPlaceOrder
  unfold placeOrderFast
  dsimp only
  rw [typed, writeInt_payload, List.nil_append, List.singleton_append]
  generalize payloadOf [encodeInt formatters outPlaceOrder, encodeInt formatters orderId] ++ template = before
  have action : pushField before p.action = before ++ payloadOf [p.action] :=
    (congrArg (pushField · _) (List.append_nil before).symm).trans (pushField_payload before [] p.action)
  simp only [action, pushField_payload, writeF64_payload, List.cons_append, List.nil_append, bodyFields]

end Buffers

theorem fast_eq_slow {φ : Type} (formatters : Formatters φ) (decimal : ∀ v, formatters.itoa v = toString v)
    (orderId : ℤ) (c : ContractRequest φ) (p : PlaceOrderParams φ) :
    placeOrderFast formatters orderId (fromContract formatters c) p = placeOrder formatters orderId c p := by
  rw [placeOrderFast_split]
  unfold placeOrder encodeFields fromContract trailingBytes
  simp only [pushFields_payload, ← payload_append]
  apply congrArg (prefixed ∘ payloadOf)
  -- the constants are pushed as literals on one side, and formatted on the other
  simp only [bodyFields, encodeInt, encodeInt64, encodeIntLong, decimal, List.cons_append, List.nil_append]
  rfl

def sampleFormatters : Formatters F64 where
  itoa := toString
  ryu v := if v = .finite 0 then "0.0" else if v = .finite 1 then "1.0" else if v = .finite (121/20) then "6.05" else "0.0285"
  isInfinite v := v = .infinite true ∨ v = .infinite false
  zero := .finite 0

theorem fast_eq_slow_sell :
    placeOrderFast sampleFormatters 42 (fromContract sampleFormatters
        ⟨12345, "HG", "FOP", "20260526", .finite (121/20), "C", "25000", "COMEX", "", "USD", "HXEK6 P5950", "HXE"⟩)
        ⟨"SELL", .finite 1, "LMT", .finite (57/2000), .infinite false, "GTD", "20260526 16:00:00 UTC", "DUP553657", "k123",
          false⟩ =
      placeOrder sampleFormatters 42
        ⟨12345, "HG", "FOP", "20260526", .finite (121/20), "C", "25000", "COMEX", "", "USD", "HXEK6 P5950", "HXE"⟩
        ⟨"SELL", .finite 1, "LMT", .finite (57/2000), .infinite false, "GTD", "20260526 16:00:00 UTC", "DUP553657", "k123",
          false⟩ :=
  fast_eq_slow sampleFormatters (fun _ => rfl) _ _ _

section Fields

variable (formats : Formats)

-- The encoders that the template cache is modelled with, field by field.
def ofFormats : Formatters F64 where
  itoa := toString
  ryu := formats.ryu
  isInfinite v := v = .infinite true ∨ v = .infinite false
  zero := .finite 0

def ofContract (c : Native.ContractRequest) : ContractRequest F64 :=
  ⟨c.conId, c.symbol, c.secType, c.lastTradeDate, c.strike, c.right, c.multiplier, c.exchange, c.primaryExchange,
    c.currency, c.localSymbol, c.tradingClass⟩

def ofParams (p : Native.PlaceOrderParams) : PlaceOrderParams F64 :=
  ⟨p.action, p.totalQuantity, p.orderType, p.lmtPrice, p.auxPrice, p.tif, p.goodTillDate, p.account, p.orderRef,
    p.outsideRth⟩

variable {formats}

theorem encodeF64_fields (v : F64) : encodeF64 (ofFormats formats) v = Native.encodeF64 formats v := by
  cases v with
  | finite value => rfl
  | infinite negative => cases negative <;> rfl
  | nan => rfl

theorem placeOrder_fields (orderId : ℤ) (c : Native.ContractRequest) (p : Native.PlaceOrderParams) :
    placeOrder (ofFormats formats) orderId (ofContract c) (ofParams p) = Native.placeOrder formats orderId c p := by
  unfold placeOrder Native.placeOrder
  simp only [encodeF64_fields]
  rfl

theorem placeOrderFast_fields (orderId : ℤ) (c : Native.ContractRequest) (p : Native.PlaceOrderParams) :
    placeOrderFast (ofFormats formats) orderId (fromContract (ofFormats formats) (ofContract c)) (ofParams p) =
      Native.placeOrderFast formats orderId (Native.fromContract formats c) p := by
  rw [placeOrderFast_split]
  unfold Native.placeOrderFast fromContract Native.fromContract trailingBytes
  simp only [pushFields_payload, bodyFields, encodeF64_fields]
  rfl

end Fields

end Corsair.Native.Bytewise
